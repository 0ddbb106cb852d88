/-!
This module contains the division of a text at every occurrence of a mark, and the removal of what
stands at its end.
-/

namespace DotFormat.Text

/--
The pieces between the marks of a text; there is always one more piece than marks.
-/
def pieces (mark : Char) : List Char → List (List Char)
  | [] => [[]]
  | c :: text =>
    if c == mark then [] :: pieces mark text
    else
      match pieces mark text with
      | [] => [[c]]
      | piece :: rest => (c :: piece) :: rest

theorem pieces_ne_nil (mark : Char) (text : List Char) : pieces mark text ≠ [] := by
  induction text with
  | nil => simp [pieces]
  | cons c text ih =>
    unfold pieces
    split
    · simp
    · split <;> simp

theorem append_cons_inj {c : Char} {x y r s : List Char} (hx : c ∉ x) (hy : c ∉ y)
    : x ++ c :: r = y ++ c :: s ↔ x = y ∧ r = s := by
  induction x generalizing y with
  | nil =>
    cases y with
    | nil => simp
    | cons d y =>
      have hd : c ≠ d := fun h => hy (h ▸ List.mem_cons_self)
      simp [hd]
  | cons b x ih =>
    have hb : b ≠ c := fun h => hx (h ▸ List.mem_cons_self)
    cases y with
    | nil => simp [hb]
    | cons d y =>
      have := ih (fun h => hx (List.mem_cons_of_mem b h)) (fun h => hy (List.mem_cons_of_mem d h))
      simp [this, and_assoc]

def dropEndWhile (p : α → Bool) : List α → List α
  | [] => []
  | x :: xs =>
    match dropEndWhile p xs with
    | [] => if p x then [] else [x]
    | y :: ys => x :: y :: ys

end DotFormat.Text

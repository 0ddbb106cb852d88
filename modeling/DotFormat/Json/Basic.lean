/-!
This module contains JSON values. The members of an object keep their order, and a key occurs once in
the objects that `collect` makes.
-/

namespace DotFormat

/--
A JSON value. A number with a fraction or an exponent is kept as it is written.
-/
inductive Json where
  | null
  | bool (b : Bool)
  | int (n : Int)
  | real (written : String)
  | str (s : String)
  | arr (items : List Json)
  | obj (members : List (String × Json))
  deriving BEq, Repr, Inhabited

namespace Json

/--
Give a key a value. A key that is there keeps its position.
-/
def put (members : List (String × Json)) (key : String) (value : Json) : List (String × Json) :=
  match members with
  | [] => [(key, value)]
  | member :: members =>
    if member.1 = key then (key, value) :: members else member :: put members key value

/--
The members of an object that is written with the given pairs. Of several values for one key the last
one counts.
-/
def collect (pairs : List (String × Json)) : List (String × Json) :=
  pairs.foldl (fun members pair => put members pair.1 pair.2) []

def insertByKey (member : String × Json) : List (String × Json) → List (String × Json)
  | [] => [member]
  | other :: members =>
    if member.1 ≤ other.1 then member :: other :: members
    else other :: insertByKey member members

def sortByKey (members : List (String × Json)) : List (String × Json) :=
  members.foldr insertByKey []

theorem lookup_put (members : List (String × Json)) (key other : String) (value : Json) :
    (put members key value).lookup other =
      if other = key then some value else members.lookup other := by
  have hne {k : String} (h : other ≠ k) : (other == k) = false := beq_eq_false_iff_ne.2 h
  induction members with
  | nil => by_cases h : other = key <;> simp [put, List.lookup_cons, h, hne]
  | cons member members ih =>
    obtain ⟨k, v⟩ := member
    unfold put
    by_cases hk : k = key
    · subst hk
      by_cases h : other = k <;> simp [List.lookup_cons, h, hne]
    · by_cases h : other = k
      · subst h
        simp [hk]
      · simp [List.lookup_cons, hk, hne h, ih]

end Json

end DotFormat

import DotFormat.Node.Decode
import Mathlib.Data.List.Basic

/-!
This module contains which members the nodes of each type declare, and that all types are read from their
members in the same way: first the members that are there, in the order of their declaration, and then
what stands for those that are missing.
-/

namespace DotFormat

/-! ### Traversals -/

theorem mem_of_mapM_eq_ok {f : α → Except ε β} {l : List α} {found : List β}
    (h : l.mapM f = .ok found)
    : (∀ a ∈ l, ∃ b ∈ found, f a = .ok b) ∧ ∀ b ∈ found, ∃ a ∈ l, f a = .ok b := by
  induction l generalizing found with
  | nil =>
    cases h
    simp
  | cons a l ih =>
    rw [List.mapM_cons] at h
    cases ha : f a with
    | error e =>
      rw [ha] at h
      contradiction
    | ok b =>
      cases hl : l.mapM f with
      | error e =>
        rw [ha, hl] at h
        contradiction
      | ok rest =>
        rw [ha, hl] at h
        obtain rfl : b :: rest = found := Except.ok.inj h
        obtain ⟨hto, hfrom⟩ := ih hl
        simp only [List.forall_mem_cons, List.exists_mem_cons_iff]
        exact ⟨⟨.inl ha, fun a ha => .inr (hto a ha)⟩, .inl ha, fun b hb => .inr (hfrom b hb)⟩

theorem exists_mapM_eq_ok {f : α → Except ε β} {l : List α} (h : ∀ a ∈ l, ∃ b, f a = .ok b)
    : ∃ found, l.mapM f = .ok found := by
  induction l with
  | nil => exact ⟨[], rfl⟩
  | cons a l ih =>
    obtain ⟨⟨b, hb⟩, hl⟩ := List.forall_mem_cons.1 h
    obtain ⟨found, hfound⟩ := ih hl
    refine ⟨b :: found, ?_⟩
    rw [List.mapM_cons, hb, hfound]
    rfl

/--
The first failure is the one that counts.
-/
theorem mapM_eq_error {f : α → Except ε β} {before after : List α} {a : α} {e : ε}
    (hbefore : ∀ a ∈ before, ∃ b, f a = .ok b) (h : f a = .error e)
    : (before ++ a :: after).mapM f = .error e := by
  obtain ⟨found, hfound⟩ := exists_mapM_eq_ok hbefore
  rw [List.mapM_append, hfound, List.mapM_cons, h]
  rfl

theorem mapM_eq_error_of_mem {f : α → Except ε β} {l : List α} {a : α} {e : ε}
    (h : ∀ a ∈ l, (∃ b, f a = .ok b) ∨ f a = .error e) (ha : a ∈ l) (hfails : f a = .error e)
    : l.mapM f = .error e := by
  induction l with
  | nil => simp at ha
  | cons first l ih =>
    obtain ⟨hfirst, hl⟩ := List.forall_mem_cons.1 h
    rw [List.mapM_cons]
    rcases hfirst with ⟨b, hb⟩ | herror
    . have hmem : a ∈ l := by
        rcases List.mem_cons.1 ha with rfl | ha
        . rw [hb] at hfails
          contradiction
        . exact ha
      rw [hb, ih hl hmem]
      rfl
    . rw [herror]
      rfl

namespace Node

/-! ### Items -/

theorem toJsons_eq_map (items : List Node) : toJsons items = items.map toJson := by
  induction items with
  | nil => rfl
  | cons item items ih => simp [toJsons, ih]

theorem ofItems_eq_mapM (items : List Json) : ofItems items = items.mapM ofField := by
  induction items with
  | nil => rfl
  | cons item items ih =>
    rw [ofItems, ih, List.mapM_cons]
    cases ofField item with
    | error e => rfl
    | ok node =>
      cases items.mapM ofField with
      | error e => rfl
      | ok nodes => rfl

theorem ofItems_map_eq_ok {form : Node → Json} {items : List Node}
    (h : ∀ item ∈ items, ofField (form item) = .ok item) : ofItems (items.map form) = .ok items := by
  induction items with
  | nil => rfl
  | cons item items ih =>
    obtain ⟨hitem, hitems⟩ := List.forall_mem_cons.1 h
    rw [List.map_cons, ofItems, hitem, ih hitems]
    rfl

/-! ### Members that are declared -/

/--
A member that a node declares, with the value that stands for it if it is missing. A member that has
none is required.
-/
structure Field where
  key : String
  default? : Option Node := none

/--
The values in the fields of a node.
-/
def parts : Node → List Node
  | textRun content bold italic large place => [content, bold, italic, large, place]
  | paragraph runs indent fill place => [runs, indent, fill, place]
  | diagnostic kind message line sourceFile => [kind, message, line, sourceFile]
  | document paragraphs sourceFile diagnostics => [paragraphs, sourceFile, diagnostics]
  | _ => []

end Node

/--
The members that nodes of a type declare.
-/
def NodeType.fields : NodeType → List Node.Field
  | document =>
    [{ key := "children", default? := some (.tuple []) },
      { key := "source_file", default? := some (.plain .null) },
      { key := "diagnostics", default? := some (.tuple []) }]
  | paragraph =>
    [{ key := "runs", default? := some (.tuple []) },
      { key := "indent_units", default? := some (.ofInt 0) },
      { key := "fill_mode", default? := some (.ofBool false) },
      { key := "location", default? := some Node.noLocation }]
  | textRun =>
    [{ key := "content" },
      { key := "bold", default? := some (.ofBool false) },
      { key := "italic", default? := some (.ofBool false) },
      { key := "large", default? := some (.ofBool false) },
      { key := "location", default? := some Node.noLocation }]
  | diagnostic =>
    [{ key := "kind" },
      { key := "message" },
      { key := "lineno", default? := some (.plain .null) },
      { key := "source_file", default? := some (.plain .null) }]

namespace Node

/-! ### Reading the fields of a node -/

/--
A field with what its member holds, if it is there.
-/
def Field.find (fields : Fields) (field : Field) : Except NodeError (Field × Option Node) :=
  return (field, ← fields.find? field.key)

def Field.settle (found : Field × Option Node) : Except NodeError Node :=
  require (found.2 <|> found.1.default?)

theorem Fields.findD_eq_bind (fields : Fields) (key : String) (default : Node)
    : fields.findD key default = do
        let found ← fields.find? key
        return found.getD default := by
  unfold findD
  cases fields.find? key with
  | error e => rfl
  | ok found => rfl

/--
The values for the fields of a node. What is missing is looked at after all members that are there.
-/
def partsOf (type : NodeType) (fields : Fields) : Except NodeError (List Node) := do
  let found ← type.fields.mapM (Field.find fields)
  found.mapM Field.settle

theorem ofFields_eq_partsOf (type : NodeType) (fields : Fields)
    : (fun node => (node.type?, node.parts)) <$> ofFields type fields
        = (fun parts => (some type, parts)) <$> partsOf type fields := by
  have hsettle (key : String) (default : Node) (found : Option Node)
      : Field.settle ({ key, default? := some default }, found) = pure (found.getD default) := by
    cases found with
    | none => rfl
    | some found => rfl
  have hrequire (key : String) (found : Option Node)
      : Field.settle ({ key }, found) = require found := by
    cases found with
    | none => rfl
    | some found => rfl
  cases type <;>
    simp [ofFields, partsOf, NodeType.fields, List.mapM_cons, Fields.findD_eq_bind, Field.find,
      hsettle, hrequire, parts, type?]

theorem ofFields_cases (type : NodeType) (fields : Fields)
    : (∃ node, ofFields type fields = .ok node ∧ node.type? = some type
          ∧ partsOf type fields = .ok node.parts)
        ∨ ∃ e, ofFields type fields = .error e ∧ partsOf type fields = .error e := by
  have h := ofFields_eq_partsOf type fields
  cases hnode : ofFields type fields with
  | ok node =>
    rw [hnode] at h
    cases hparts : partsOf type fields with
    | error e =>
      rw [hparts] at h
      contradiction
    | ok parts =>
      rw [hparts] at h
      obtain ⟨htype, rfl⟩ := Prod.ext_iff.1 (Except.ok.inj h)
      exact .inl ⟨node, rfl, htype, rfl⟩
  | error e =>
    rw [hnode] at h
    cases hparts : partsOf type fields with
    | error other =>
      rw [hparts] at h
      obtain rfl := Except.error.inj h
      exact .inr ⟨e, rfl, rfl⟩
    | ok parts =>
      rw [hparts] at h
      contradiction

theorem type?_of_ofFields {type : NodeType} {fields : Fields} {node : Node}
    (h : ofFields type fields = .ok node)
    : node.type? = some type ∧ partsOf type fields = .ok node.parts := by
  rcases ofFields_cases type fields with ⟨other, hother, hparts⟩ | ⟨e, he, _⟩
  . rw [h] at hother
    obtain rfl := Except.ok.inj hother
    exact hparts
  . rw [h] at he
    contradiction

theorem ofFields_eq_error {type : NodeType} {fields : Fields} {e : NodeError}
    (h : partsOf type fields = .error e) : ofFields type fields = .error e := by
  rcases ofFields_cases type fields with ⟨node, _, _, hparts⟩ | ⟨other, hother, hparts⟩
  . rw [h] at hparts
    contradiction
  . rw [h] at hparts
    obtain rfl := Except.error.inj hparts
    exact hother

/-! ### Members that are read -/

variable {type : NodeType} {members : List (String × Json)}

theorem lookup_readMembers (members : List (String × Json)) (key : String)
    : (readMembers members).lookup key = (members.lookup key).map ofField := by
  induction members with
  | nil => rfl
  | cons member members ih =>
    obtain ⟨name, value⟩ := member
    rw [readMembers, List.lookup_cons, List.lookup_cons, ih]
    cases key == name with
    | true => rfl
    | false => rfl

theorem Field.find_readMembers (members : List (String × Json)) (field : Field)
    : field.find (readMembers members) =
        match members.lookup field.key with
        | none => .ok (field, none)
        | some value => (ofField value).map fun node => (field, some node) := by
  unfold find Fields.find?
  rw [lookup_readMembers]
  cases members.lookup field.key with
  | none => rfl
  | some value =>
    simp only [Option.map_some]
    cases ofField value with
    | error e => rfl
    | ok node => rfl

theorem Field.find_cases {field : Field} {found : Field × Option Node}
    (h : field.find (readMembers members) = .ok found)
    : (members.lookup field.key = none ∧ found = (field, none))
        ∨ ∃ value node, members.lookup field.key = some value ∧ ofField value = .ok node
            ∧ found = (field, some node) := by
  rw [find_readMembers] at h
  cases hlookup : members.lookup field.key with
  | none =>
    rw [hlookup] at h
    exact .inl ⟨rfl, (Except.ok.inj h).symm⟩
  | some value =>
    rw [hlookup] at h
    simp only at h
    cases hnode : ofField value with
    | error e =>
      rw [hnode] at h
      contradiction
    | ok node =>
      rw [hnode] at h
      exact .inr ⟨value, node, rfl, hnode, (Except.ok.inj h).symm⟩

theorem Field.settle_none (field : Field) : settle (field, none) = require field.default? :=
  rfl

/--
Every member that is there can be read.
-/
def MembersReadable (members : List (String × Json)) (fields : List Field) : Prop :=
  ∀ field ∈ fields, ∀ value ∈ members.lookup field.key, ∃ node, ofField value = .ok node

theorem MembersReadable.exists_find {fields : List Field} (h : MembersReadable members fields)
    : ∀ field ∈ fields, ∃ found, field.find (readMembers members) = .ok found := by
  intro field hfield
  rw [Field.find_readMembers]
  cases hlookup : members.lookup field.key with
  | none => exact ⟨_, rfl⟩
  | some value =>
    obtain ⟨node, hnode⟩ := h field hfield value hlookup
    simp only [hnode]
    exact ⟨_, rfl⟩

theorem Field.settle_cases (found : Field × Option Node)
    : (∃ node, settle found = .ok node) ∨ settle found = .error .missingField := by
  unfold settle
  cases found.2 <|> found.1.default? with
  | none => exact .inr rfl
  | some node => exact .inl ⟨node, rfl⟩

theorem exists_partsOf_eq_ok (h : MembersReadable members type.fields)
    (hrequired : ∀ field ∈ type.fields, field.default? = none → members.lookup field.key ≠ none)
    : ∃ parts, partsOf type (readMembers members) = .ok parts := by
  obtain ⟨found, hfound⟩ := exists_mapM_eq_ok h.exists_find
  have hsettle : ∀ part ∈ found, ∃ node, Field.settle part = .ok node := by
    intro part hpart
    obtain ⟨field, hfield, hfind⟩ := (mem_of_mapM_eq_ok hfound).2 part hpart
    rcases Field.find_cases hfind with ⟨hlookup, rfl⟩ | ⟨_, node, _, _, rfl⟩
    . rw [Field.settle_none]
      cases hdefault : field.default? with
      | none => exact absurd hlookup (hrequired field hfield hdefault)
      | some default => exact ⟨default, rfl⟩
    . exact ⟨node, rfl⟩
  obtain ⟨parts, hparts⟩ := exists_mapM_eq_ok hsettle
  refine ⟨parts, ?_⟩
  unfold partsOf
  rw [hfound]
  exact hparts

theorem partsOf_eq_error_of_value {before after : List Field} {field : Field} {value : Json}
    {e : NodeError} (hfields : type.fields = before ++ field :: after)
    (hbefore : MembersReadable members before) (hlookup : members.lookup field.key = some value)
    (h : ofField value = .error e) : partsOf type (readMembers members) = .error e := by
  have hfind : field.find (readMembers members) = .error e := by
    rw [Field.find_readMembers, hlookup]
    simp only [h]
    rfl
  unfold partsOf
  rw [hfields, mapM_eq_error hbefore.exists_find hfind]
  rfl

theorem partsOf_eq_missingField {field : Field} (h : MembersReadable members type.fields)
    (hfield : field ∈ type.fields) (hrequired : field.default? = none)
    (hlookup : members.lookup field.key = none)
    : partsOf type (readMembers members) = .error .missingField := by
  obtain ⟨found, hfound⟩ := exists_mapM_eq_ok h.exists_find
  obtain ⟨part, hpart, hfind⟩ := (mem_of_mapM_eq_ok hfound).1 field hfield
  rw [Field.find_readMembers, hlookup] at hfind
  obtain rfl := Except.ok.inj hfind
  have hsettle : Field.settle (field, none) = .error .missingField := by
    rw [Field.settle_none, hrequired]
    rfl
  unfold partsOf
  rw [hfound]
  apply mapM_eq_error_of_mem _ hpart hsettle
  intro other _
  exact Field.settle_cases other

/--
Each value in a field is read from the member that declares it, or stands there for a missing one.
-/
theorem mem_partsOf {parts : List Node} (h : partsOf type (readMembers members) = .ok parts)
    : ∀ part ∈ parts, ∃ field ∈ type.fields,
        field.default? = some part
          ∨ ∃ value, members.lookup field.key = some value ∧ ofField value = .ok part := by
  intro part hpart
  unfold partsOf at h
  cases hfound : type.fields.mapM (Field.find (readMembers members)) with
  | error e =>
    rw [hfound] at h
    contradiction
  | ok found =>
    rw [hfound] at h
    obtain ⟨entry, hentry, hsettle⟩ := (mem_of_mapM_eq_ok h).2 part hpart
    obtain ⟨field, hfield, hfind⟩ := (mem_of_mapM_eq_ok hfound).2 entry hentry
    refine ⟨field, hfield, ?_⟩
    rcases Field.find_cases hfind with ⟨_, rfl⟩ | ⟨value, node, hlookup, hnode, rfl⟩
    . rw [Field.settle_none] at hsettle
      cases hdefault : field.default? with
      | none =>
        rw [hdefault] at hsettle
        contradiction
      | some default =>
        rw [hdefault] at hsettle
        exact .inl (congrArg some (Except.ok.inj hsettle))
    . obtain rfl : node = part := Except.ok.inj hsettle
      exact .inr ⟨value, hlookup, hnode⟩

end Node

end DotFormat

import DotFormat.Proofs.Node.Fields

/-!
This module contains which JSON values stand for a node, and which error is reported for the others. What
can be read is described by the shape of the value alone. A value that cannot be read has a first fault on
a visit that goes into the members in the order of their declaration and looks for missing members at the
end, and this is the fault that is reported.
-/

namespace DotFormat

def Json.isScalar : Json → Bool
  | arr _ => false
  | obj _ => false
  | _ => true

namespace Node

/--
What an object gives as its type, `null` if it gives none.
-/
def named (members : List (String × Json)) : Json :=
  (members.lookup typeKey).getD .null

/--
What a value is read as: a node on its own, or the value of a member.
-/
inductive Role where
  | root
  | member

def read : Role → Json → Except NodeError Node
  | .root, json => ofJson json
  | .member, json => ofField json

@[simp]
theorem read_root (json : Json) : read .root json = ofJson json :=
  rfl

@[simp]
theorem read_member (json : Json) : read .member json = ofField json :=
  rfl

/-! ### Values that can be read -/

/--
Members that the type of a node does not declare may hold anything, and so may objects without a type and
places.
-/
inductive Decodable : Role → Json → Prop where
  | node {members : List (String × Json)} {type : NodeType} (hnamed : named members = .str type.name)
    (hrequired : ∀ field ∈ type.fields, field.default? = none → members.lookup field.key ≠ none)
    (hfields : ∀ field ∈ type.fields, ∀ value ∈ members.lookup field.key, Decodable .member value) :
    Decodable .root (.obj members)
  | scalar {json : Json} (h : json.isScalar = true) : Decodable .member json
  | array {items : List Json} (h : ∀ item ∈ items, Decodable .member item) :
    Decodable .member (.arr items)
  | raw {members : List (String × Json)} (hnamed : named members = .null) :
    Decodable .member (.obj members)
  | location {members : List (String × Json)} (hnamed : named members = .str locationName)
    (hline : members.lookup "lineno" ≠ none) : Decodable .member (.obj members)
  | object {members : List (String × Json)} (h : Decodable .root (.obj members)) :
    Decodable .member (.obj members)

/--
The first fault of a value that cannot be read. Members that are declared before the faulty one, and items
that stand before it, can be read; a missing member is a fault if all that are there can be read.
-/
inductive FirstFault : Role → Json → NodeError → Prop where
  | notObject {json : Json} (h : ∀ members, json ≠ .obj members) : FirstFault .root json .notObject
  | missingType {members : List (String × Json)} (hnamed : named members = .null) :
    FirstFault .root (.obj members) .missingType
  | compoundType {members : List (String × Json)} (hnamed : (named members).isScalar = false) :
    FirstFault .root (.obj members) .compoundType
  | unknownType {members : List (String × Json)} (hscalar : (named members).isScalar = true)
    (hnull : named members ≠ .null) (htype : ∀ type : NodeType, named members ≠ .str type.name) :
    FirstFault .root (.obj members) (.unknownType (named members))
  | field {members : List (String × Json)} {type : NodeType} {before after : List Field}
    {field : Field} {value : Json} {e : NodeError} (hnamed : named members = .str type.name)
    (hfields : type.fields = before ++ field :: after)
    (hbefore : ∀ other ∈ before, ∀ value ∈ members.lookup other.key, Decodable .member value)
    (hlookup : members.lookup field.key = some value) (h : FirstFault .member value e) :
    FirstFault .root (.obj members) e
  | missingField {members : List (String × Json)} {type : NodeType} {field : Field}
    (hnamed : named members = .str type.name)
    (hfields : ∀ field ∈ type.fields, ∀ value ∈ members.lookup field.key, Decodable .member value)
    (hfield : field ∈ type.fields) (hrequired : field.default? = none)
    (hlookup : members.lookup field.key = none) : FirstFault .root (.obj members) .missingField
  | item {before after : List Json} {item : Json} {e : NodeError}
    (hbefore : ∀ other ∈ before, Decodable .member other) (h : FirstFault .member item e) :
    FirstFault .member (.arr (before ++ item :: after)) e
  | missingLine {members : List (String × Json)} (hnamed : named members = .str locationName)
    (hline : members.lookup "lineno" = none) : FirstFault .member (.obj members) .missingLine
  | object {members : List (String × Json)} {e : NodeError} (hnull : named members ≠ .null)
    (hlocation : named members ≠ .str locationName) (h : FirstFault .root (.obj members) e) :
    FirstFault .member (.obj members) e

/-! ### Reading by the shape of a value -/

theorem ofField_of_isScalar {json : Json} (h : json.isScalar = true)
    : ofField json = .ok (.plain json) := by
  cases json with
  | arr items => contradiction
  | obj members => contradiction
  | _ => rfl

variable {members : List (String × Json)} {type : NodeType}

theorem lookup_typeKey_of_named {name : Json} (h : named members = name) (hnull : name ≠ .null)
    : members.lookup typeKey = some name := by
  unfold named at h
  cases hlookup : members.lookup typeKey with
  | none =>
    rw [hlookup] at h
    exact absurd h.symm hnull
  | some found =>
    rw [hlookup] at h
    exact congrArg some h

theorem ofField_of_named_null (h : named members = .null)
    : ofField (.obj members) = .ok (.plain (.obj members)) := by
  unfold named at h
  unfold ofField
  cases hlookup : members.lookup typeKey with
  | none => rfl
  | some name =>
    rw [hlookup] at h
    obtain rfl : name = .null := h
    rfl

theorem ofField_of_named_location (h : named members = .str locationName)
    : ofField (.obj members) = locationOf members := by
  unfold ofField
  rw [lookup_typeKey_of_named h (by simp)]
  simp [namesLocation]

theorem ofJson_obj (members : List (String × Json))
    : ofJson (.obj members) =
        match typeNamed (named members) with
        | .error e => .error e
        | .ok type => ofFields type (readMembers members) := by
  unfold ofJson
  rfl

theorem ofField_eq_ofJson (hnull : named members ≠ .null)
    (hlocation : named members ≠ .str locationName)
    : ofField (.obj members) = ofJson (.obj members) := by
  have hlookup := lookup_typeKey_of_named rfl hnull
  rw [ofJson_obj]
  generalize named members = name at *
  have hnames : namesLocation name = false := by
    unfold namesLocation
    split
    . next s =>
      rw [decide_eq_false_iff_not]
      rintro rfl
      contradiction
    . rfl
  unfold ofField
  rw [hlookup]
  cases name with
  | null => contradiction
  | _ =>
    simp only [hnames]
    rfl

theorem typeNamed_name (type : NodeType) : typeNamed (.str type.name) = .ok type := by
  cases type <;> rfl

theorem typeNamed_of_unknown {name : Json} (hscalar : name.isScalar = true) (hnull : name ≠ .null)
    (htype : ∀ type : NodeType, name ≠ .str type.name)
    : typeNamed name = .error (.unknownType name) := by
  cases name with
  | null => contradiction
  | arr items => contradiction
  | obj members => contradiction
  | str s =>
    have hnone : NodeType.ofName? s = none := by
      unfold NodeType.ofName?
      rw [List.find?_eq_none]
      intro type _ hname
      rw [decide_eq_true_iff] at hname
      exact htype type (congrArg Json.str hname.symm)
    simp only [typeNamed, hnone]
  | _ => rfl

theorem typeNamed_of_compound {name : Json} (h : name.isScalar = false)
    : typeNamed name = .error .compoundType := by
  cases name with
  | arr items => rfl
  | obj members => rfl
  | _ => contradiction

theorem ofJson_of_named (h : named members = .str type.name)
    : ofJson (.obj members) = ofFields type (readMembers members) := by
  rw [ofJson_obj, h, typeNamed_name]

theorem name_ne_locationName (type : NodeType) : type.name ≠ locationName := by
  cases type <;> decide

theorem ofField_eq_ofJson_of_named (h : named members = .str type.name)
    : ofField (.obj members) = ofJson (.obj members) := by
  apply ofField_eq_ofJson
  . rw [h]
    simp
  . rw [h, ne_eq, Json.str.injEq]
    exact name_ne_locationName type

/-! ### Reading follows the shape of a value -/

theorem Decodable.exists_read {role : Role} {json : Json} (h : Decodable role json)
    : ∃ node, read role json = .ok node := by
  induction h with
  | @node members type hnamed hrequired hfields ih =>
    rw [read_root, ofJson_of_named hnamed]
    obtain ⟨parts, hparts⟩ := exists_partsOf_eq_ok ih hrequired
    rcases ofFields_cases type (readMembers members) with ⟨node, hnode, _⟩ | ⟨e, _, he⟩
    . exact ⟨node, hnode⟩
    . rw [hparts] at he
      contradiction
  | scalar h => exact ⟨_, ofField_of_isScalar h⟩
  | @array items h ih =>
    obtain ⟨nodes, hnodes⟩ := exists_mapM_eq_ok ih
    refine ⟨.tuple nodes, ?_⟩
    rw [read_member, ofField, ofItems_eq_mapM]
    exact congrArg (Except.map tuple) hnodes
  | raw hnamed => exact ⟨_, ofField_of_named_null hnamed⟩
  | @location members hnamed hline =>
    obtain ⟨line, hlookup⟩ := Option.ne_none_iff_exists'.1 hline
    rw [read_member, ofField_of_named_location hnamed, locationOf, hlookup]
    exact ⟨_, rfl⟩
  | @object members h ih =>
    cases h with
    | node hnamed hrequired hfields =>
      rw [read_member, ofField_eq_ofJson_of_named hnamed]
      exact ih

theorem FirstFault.read_eq {role : Role} {json : Json} {e : NodeError} (h : FirstFault role json e)
    : read role json = .error e := by
  induction h with
  | @notObject json h =>
    cases json with
    | obj members => exact absurd rfl (h members)
    | _ => rfl
  | missingType hnamed => rw [read_root, ofJson_obj, hnamed]; rfl
  | compoundType hnamed => rw [read_root, ofJson_obj, typeNamed_of_compound hnamed]
  | unknownType hscalar hnull htype =>
    rw [read_root, ofJson_obj, typeNamed_of_unknown hscalar hnull htype]
  | @field members type before after field value e hnamed hfields hbefore hlookup h ih =>
    have hreadable : MembersReadable members before := by
      intro other hother value hvalue
      exact (hbefore other hother value hvalue).exists_read
    rw [read_root, ofJson_of_named hnamed]
    apply ofFields_eq_error
    exact partsOf_eq_error_of_value hfields hreadable hlookup ih
  | @missingField members type field hnamed hfields hfield hrequired hlookup =>
    have hreadable : MembersReadable members type.fields := by
      intro other hother value hvalue
      exact (hfields other hother value hvalue).exists_read
    rw [read_root, ofJson_of_named hnamed]
    apply ofFields_eq_error
    exact partsOf_eq_missingField hreadable hfield hrequired hlookup
  | @item before after item e hbefore h ih =>
    have hreadable : ∀ other ∈ before, ∃ node, ofField other = .ok node := by
      intro other hother
      exact (hbefore other hother).exists_read
    rw [read_member] at ih
    rw [read_member, ofField, ofItems_eq_mapM, mapM_eq_error hreadable ih]
    rfl
  | missingLine hnamed hline =>
    rw [read_member, ofField_of_named_location hnamed, locationOf, hline]
  | object hnull hlocation h ih =>
    rw [read_member, ofField_eq_ofJson hnull hlocation]
    exact ih

/-! ### Every value can be read or has a first fault -/

theorem forall_or_exists_first {p q : α → Prop} {l : List α} (h : ∀ a ∈ l, p a ∨ q a)
    : (∀ a ∈ l, p a) ∨ ∃ before a after, l = before ++ a :: after ∧ (∀ a ∈ before, p a) ∧ q a := by
  induction l with
  | nil => exact .inl nofun
  | cons a l ih =>
    obtain ⟨ha, hl⟩ := List.forall_mem_cons.1 h
    rcases ha with ha | ha
    . rcases ih hl with hall | ⟨before, b, after, rfl, hbefore, hb⟩
      . exact .inl (List.forall_mem_cons.2 ⟨ha, hall⟩)
      . exact .inr ⟨a :: before, b, after, rfl, List.forall_mem_cons.2 ⟨ha, hbefore⟩, hb⟩
    . exact .inr ⟨[], a, l, rfl, nofun, ha⟩

theorem sizeOf_lt_of_lookup {key : String} {value : Json} (h : members.lookup key = some value)
    : sizeOf value < sizeOf members := by
  induction members with
  | nil => contradiction
  | cons member members ih =>
    obtain ⟨name, other⟩ := member
    rw [List.lookup_cons] at h
    simp only [List.cons.sizeOf_spec, Prod.mk.sizeOf_spec]
    split at h
    . obtain rfl := Option.some.inj h
      omega
    . have hlt := ih h
      omega

/--
What holds of the members of an object decides about the object.
-/
theorem decodable_root_or_firstFault
    (h : ∀ key value, members.lookup key = some value
      → Decodable .member value ∨ ∃ e, FirstFault .member value e)
    : Decodable .root (.obj members) ∨ ∃ e, FirstFault .root (.obj members) e := by
  by_cases hnull : named members = .null
  . exact .inr ⟨_, .missingType hnull⟩
  . cases hscalar : (named members).isScalar with
    | false => exact .inr ⟨_, .compoundType hscalar⟩
    | true =>
      by_cases htype : ∃ type : NodeType, named members = .str type.name
      . obtain ⟨type, hnamed⟩ := htype
        have hfields : ∀ field ∈ type.fields,
            (∀ value ∈ members.lookup field.key, Decodable .member value)
              ∨ ∃ value e, members.lookup field.key = some value ∧ FirstFault .member value e := by
          intro field _
          cases hlookup : members.lookup field.key with
          | none => exact .inl nofun
          | some value =>
            rcases h field.key value hlookup with hvalue | ⟨e, hfault⟩
            . refine .inl ?_
              rintro _ ⟨⟩
              exact hvalue
            . exact .inr ⟨value, e, rfl, hfault⟩
        rcases forall_or_exists_first hfields with
          hall | ⟨before, field, after, hsplit, hbefore, value, e, hlookup, hfault⟩
        . by_cases hrequired : ∀ field ∈ type.fields, field.default? = none
              → members.lookup field.key ≠ none
          . exact .inl (.node hnamed hrequired hall)
          . push Not at hrequired
            obtain ⟨field, hfield, hdefault, hlookup⟩ := hrequired
            exact .inr ⟨_, .missingField hnamed hall hfield hdefault hlookup⟩
        . exact .inr ⟨e, .field hnamed hsplit hbefore hlookup hfault⟩
      . exact .inr ⟨_, .unknownType hscalar hnull (not_exists.1 htype)⟩

theorem decodable_member_or_firstFault (json : Json)
    : Decodable .member json ∨ ∃ e, FirstFault .member json e := by
  cases json with
  | arr items =>
    have hitems : ∀ item ∈ items, Decodable .member item ∨ ∃ e, FirstFault .member item e := by
      intro item hitem
      have := List.sizeOf_lt_of_mem hitem
      exact decodable_member_or_firstFault item
    rcases forall_or_exists_first hitems with hall | ⟨before, item, after, rfl, hbefore, e, hfault⟩
    . exact .inl (.array hall)
    . exact .inr ⟨e, .item hbefore hfault⟩
  | obj members =>
    by_cases hnull : named members = .null
    . exact .inl (.raw hnull)
    . by_cases hlocation : named members = .str locationName
      . by_cases hline : members.lookup "lineno" = none
        . exact .inr ⟨_, .missingLine hlocation hline⟩
        . exact .inl (.location hlocation hline)
      . have hroot : Decodable .root (.obj members) ∨ ∃ e, FirstFault .root (.obj members) e := by
          apply decodable_root_or_firstFault
          intro key value hlookup
          have := sizeOf_lt_of_lookup hlookup
          exact decodable_member_or_firstFault value
        rcases hroot with hdecodable | ⟨e, hfault⟩
        . exact .inl (.object hdecodable)
        . exact .inr ⟨e, .object hnull hlocation hfault⟩
  | _ => exact .inl (.scalar rfl)
termination_by json

theorem decodable_or_firstFault (role : Role) (json : Json)
    : Decodable role json ∨ ∃ e, FirstFault role json e := by
  cases role with
  | member => exact decodable_member_or_firstFault json
  | root =>
    cases json with
    | obj members =>
      apply decodable_root_or_firstFault
      intro _ value _
      exact decodable_member_or_firstFault value
    | _ => exact .inr ⟨_, .notObject nofun⟩

theorem exists_read_eq_ok_iff {role : Role} {json : Json}
    : (∃ node, read role json = .ok node) ↔ Decodable role json := by
  constructor
  . rintro ⟨node, hnode⟩
    rcases decodable_or_firstFault role json with hdecodable | ⟨e, hfault⟩
    . exact hdecodable
    . rw [hfault.read_eq] at hnode
      contradiction
  . exact Decodable.exists_read

theorem read_eq_error_iff {role : Role} {json : Json} {e : NodeError}
    : read role json = .error e ↔ FirstFault role json e := by
  constructor
  . intro he
    rcases decodable_or_firstFault role json with hdecodable | ⟨other, hfault⟩
    . obtain ⟨node, hnode⟩ := hdecodable.exists_read
      rw [he] at hnode
      contradiction
    . rw [hfault.read_eq] at he
      obtain rfl := Except.error.inj he
      exact hfault
  . exact FirstFault.read_eq

/-! ### Texts -/

theorem exists_type?_of_ofJson {json : Json} {node : Node} (h : ofJson json = .ok node)
    : ∃ type, node.type? = some type := by
  have hdecodable : Decodable .root json := exists_read_eq_ok_iff.1 ⟨node, h⟩
  cases hdecodable with
  | @node members type hnamed hrequired hfields =>
    rw [ofJson_of_named hnamed] at h
    exact ⟨type, (type?_of_ofFields h).1⟩

/--
What a text is read as: the value in it has to be one of a document.
-/
inductive TextOutcome (text : String) : Except TextError Node → Prop where
  | noJson {e : Json.ReadError} (htext : Json.read text = .error e) :
    TextOutcome text (.error (.json e))
  | fault {json : Json} {e : NodeError} (htext : Json.read text = .ok json)
    (h : FirstFault .root json e) : TextOutcome text (.error (.node e))
  | document {json : Json} {node : Node} (htext : Json.read text = .ok json)
    (h : ofJson json = .ok node) (htype : node.type? = some .document) : TextOutcome text (.ok node)
  | notDocument {json : Json} {node : Node} {type : NodeType} (htext : Json.read text = .ok json)
    (h : ofJson json = .ok node) (htype : node.type? = some type) (hne : type ≠ .document) :
    TextOutcome text (.error (.node (.notDocument type)))

theorem textOutcome_ofText (text : String) : TextOutcome text (ofText text) := by
  unfold ofText
  cases htext : Json.read text with
  | error e => exact .noJson htext
  | ok json =>
    cases h : ofJson json with
    | error e =>
      simp only [h]
      exact .fault htext (read_eq_error_iff.1 h)
    | ok node =>
      obtain ⟨type, htype⟩ := exists_type?_of_ofJson h
      simp only [h, htype]
      cases type with
      | document => exact .document htext h htype
      | _ => exact .notDocument htext h htype nofun

theorem TextOutcome.ofText_eq {text : String} {result : Except TextError Node}
    (h : TextOutcome text result) : ofText text = result := by
  unfold ofText
  cases h with
  | noJson htext => rw [htext]
  | fault htext h =>
    have hread : ofJson _ = _ := h.read_eq
    simp only [htext, hread]
  | document htext h htype => simp only [htext, h, htype]
  | notDocument htext h htype hne => simp only [htext, h, htype]

/--
A JSON value is read as a node exactly if its shape is that of one, and otherwise its first fault is
reported. A text is read by the value in it, which has to be one of a document.
-/
theorem ofJson_first_fault
    : (∀ json, (∃ node, ofJson json = .ok node) ↔ Decodable .root json)
      ∧ (∀ json e, ofJson json = .error e ↔ FirstFault .root json e)
      ∧ ∀ text result, ofText text = result ↔ TextOutcome text result := by
  refine ⟨?_, ?_, ?_⟩
  . intro json
    exact @exists_read_eq_ok_iff .root json
  . intro json e
    exact @read_eq_error_iff .root json e
  . intro text result
    constructor
    . rintro rfl
      apply textOutcome_ofText
    . apply TextOutcome.ofText_eq

-- The place has no line and a required member is missing, but the faulty item stands before both.
example
    : ofJson (.obj [
        ("lineno", .obj [("_type", .str "SourceLocation")]),
        ("message", .arr [.int 1, .obj [("_type", .str "Page")], .obj [("_type", .arr [])]]),
        ("_type", .str "Diagnostic")]) = .error (.unknownType (.str "Page")) := by
  rfl

end Node

end DotFormat

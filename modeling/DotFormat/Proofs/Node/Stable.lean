import DotFormat.Proofs.Node.Decodable

/-!
This module contains that a node tree that was read from a JSON value is read again from its own JSON form,
whatever its fields hold. The form undoes at every depth what reading has changed.
-/

namespace DotFormat.Node

theorem ofField_toJson_noLocation : ofField noLocation.toJson = .ok noLocation := by
  rfl

/--
What stands for a missing member is read from its form.
-/
theorem ofField_toJson_default (type : NodeType)
    : ∀ field ∈ type.fields, ∀ default ∈ field.default?, ofField default.toJson = .ok default := by
  cases type <;>
    simp [NodeType.fields, ofInt, ofBool, toJson, toJsons, ofField, ofItems, Except.map,
      ofField_toJson_noLocation]

/--
A node is read from its form if the values in its fields are.
-/
theorem ofJson_toJson_of_parts {node : Node} {type : NodeType} (htype : node.type? = some type)
    (h : ∀ part ∈ node.parts, ofField part.toJson = .ok part) : ofJson node.toJson = .ok node := by
  cases node with
  | plain json => contradiction
  | tuple items => contradiction
  | location line sourceFile => contradiction
  | _ =>
    simp only [parts, List.forall_mem_cons] at h
    simp [toJson, ofJson, readMembers, typeKey, typeNamed, NodeType.ofName?, NodeType.all,
      NodeType.name, ofFields, Fields.find?, Fields.findD, require, List.lookup_cons, Except.map,
      bind, Except.bind, pure, Except.pure, h]

theorem exists_toJson_eq_obj {node : Node} {type : NodeType} (h : node.type? = some type)
    : ∃ members, node.toJson = .obj members ∧ named members = .str type.name := by
  cases node with
  | plain json => contradiction
  | tuple items => contradiction
  | location line sourceFile => contradiction
  | _ =>
    obtain rfl := Option.some.inj h
    unfold toJson
    exact ⟨_, rfl, rfl⟩

theorem ofField_toJson_location (line sourceFile : Json)
    : ofField (location line sourceFile).toJson = .ok (.location line sourceFile) := by
  unfold toJson
  rw [ofField_of_named_location rfl]
  simp [locationOf, List.lookup_cons, typeKey]

/--
Whatever was read is read again from its form.
-/
theorem Decodable.read_toJson {role : Role} {json : Json} (h : Decodable role json) {node : Node}
    (hnode : read role json = .ok node) : read role node.toJson = .ok node := by
  induction h generalizing node with
  | @node members type hnamed hrequired hfields ih =>
    rw [read_root] at hnode ⊢
    rw [ofJson_of_named hnamed] at hnode
    obtain ⟨htype, hparts⟩ := type?_of_ofFields hnode
    apply ofJson_toJson_of_parts htype
    intro part hpart
    obtain ⟨field, hfield, hdefault | ⟨value, hlookup, hvalue⟩⟩ := mem_partsOf hparts part hpart
    . exact ofField_toJson_default type field hfield part hdefault
    . exact ih field hfield value hlookup hvalue
  | scalar h =>
    rw [read_member, ofField_of_isScalar h] at hnode
    obtain rfl := Except.ok.inj hnode
    exact ofField_of_isScalar h
  | @array items h ih =>
    rw [read_member, ofField, ofItems_eq_mapM] at hnode
    cases hitems : items.mapM ofField with
    | error e =>
      rw [hitems] at hnode
      contradiction
    | ok nodes =>
      rw [hitems] at hnode
      obtain rfl : Node.tuple nodes = node := Except.ok.inj hnode
      have hnodes : ∀ node ∈ nodes, ofField node.toJson = .ok node := by
        intro node hnode
        obtain ⟨item, hitem, hread⟩ := (mem_of_mapM_eq_ok hitems).2 node hnode
        exact ih item hitem hread
      rw [read_member, toJson, toJsons_eq_map, ofField, ofItems_map_eq_ok hnodes]
      rfl
  | raw hnamed =>
    rw [read_member, ofField_of_named_null hnamed] at hnode
    obtain rfl := Except.ok.inj hnode
    exact ofField_of_named_null hnamed
  | @location members hnamed hline =>
    rw [read_member, ofField_of_named_location hnamed, locationOf] at hnode
    cases hlookup : members.lookup "lineno" with
    | none => contradiction
    | some line =>
      rw [hlookup] at hnode
      obtain rfl := Except.ok.inj hnode
      apply ofField_toJson_location
  | @object members h ih =>
    cases h with
    | @node _ type hnamed hrequired hfields =>
      rw [read_member, ofField_eq_ofJson_of_named hnamed] at hnode
      have hread : ofJson node.toJson = .ok node := ih hnode
      rw [ofJson_of_named hnamed] at hnode
      obtain ⟨members, hform, hname⟩ := exists_toJson_eq_obj (type?_of_ofFields hnode).1
      rw [hform] at hread ⊢
      rw [read_member, ofField_eq_ofJson_of_named hname]
      exact hread

/--
A node that was read from a JSON value is read again from its own form.
-/
theorem ofJson_toJson_of_ofJson {json : Json} {node : Node} (h : ofJson json = .ok node)
    : ofJson node.toJson = .ok node := by
  have hdecodable : Decodable .root json := exists_read_eq_ok_iff.1 ⟨node, h⟩
  exact hdecodable.read_toJson h

theorem ofJson_toJson_of_untyped_fields
    : ∃ node,
        ofJson (.obj [
          ("more", .obj [("_type", .str "Page")]),
          ("location", .arr [.obj [("_type", .str "SourceLocation"), ("lineno", .arr [.null])]]),
          ("bold", .obj [("_type", .str "Diagnostic"), ("message", .int 3), ("kind", .arr [])]),
          ("content", .obj [("_type", .null), ("", .arr [.obj [("_type", .str "Page")]])]),
          ("_type", .str "TextRun")]) = .ok node
        ∧ node =
          .textRun
            (.plain (.obj [("_type", .null), ("", .arr [.obj [("_type", .str "Page")]])]))
            (.diagnostic (.tuple []) (.plain (.int 3)) (.plain .null) (.plain .null))
            (.plain (.bool false)) (.plain (.bool false))
            (.tuple [.location (.arr [.null]) .null])
        ∧ ofJson node.toJson = .ok node := by
  refine ⟨_, ?read, rfl, ofJson_toJson_of_ofJson ?read⟩
  rfl

end DotFormat.Node

import LogQuery.Index.Mapping
import LogQuery.Proofs.Json.Members
import LogQuery.Proofs.Result

/-! The fields of several indices. What an index adds does not depend on what is known before it, but
for the names that are taken. So the fields of two answers together are those of the first, and of the
second those whose names are new; and they are named after the properties of the mappings. -/

namespace LogQuery.Index.Mapping

/-! ## Mappings -/

/-- The further forms of a property, if it has any, are objects. -/
def HasForms (property : Members) : Prop :=
  ∀ forms, property.get? "fields" = some forms →
    ∃ members : Members, forms = .obj members ∧ ∀ form ∈ members, ∃ held, form.2 = .obj held

mutual

/-- All of them are properties. -/
inductive AreProperties : Members → Prop
  | nil : AreProperties []
  | cons {name : Text} {property properties : Members} (hFirst : IsProperty property)
      (hRest : AreProperties properties) : AreProperties ((name, .obj property) :: properties)

/-- A property is a plain field, an object with properties of its own, or a list of such objects. The
forms of a mere object are not looked at. -/
inductive IsProperty : Members → Prop
  | plain {property : Members} (hInner : property.get? "properties" = none)
      (hForms : HasForms property) : IsProperty property
  | object {property inner : Members} (hInner : property.get? "properties" = some (.obj inner))
      (hProperties : AreProperties inner) (hType : property.get? "type" ≠ some (.str "nested")) :
      IsProperty property
  | nested {property inner : Members} (hInner : property.get? "properties" = some (.obj inner))
      (hProperties : AreProperties inner) (hType : property.get? "type" = some (.str "nested"))
      (hForms : HasForms property) : IsProperty property

end

/-- The properties of an index; it may have none. -/
def IsIndex (index : Json) : Prop :=
  ∃ members : Members, index = .obj members ∧ ∀ mappings, members.get? "mappings" = some mappings →
    ∃ held : Members, mappings = .obj held ∧ ∀ value, held.get? "properties" = some value →
      ∃ properties, value = .obj properties ∧ AreProperties properties

/-- An answer with the mappings of some indices. -/
def IsMapping (answer : Members) : Prop :=
  ∀ index ∈ answer, IsIndex index.2

/-! ## Names of fields -/

/-- A property stands among some properties, or at any depth within one of them, under its dotted
name. -/
inductive Stands : Members → Text → Members → Prop
  | top {properties property : Members} {name : Text} (h : (name, .obj property) ∈ properties) :
      Stands properties name property
  | within {properties property inner found : Members} {name path : Text}
      (h : (name, .obj property) ∈ properties)
      (hInner : property.get? "properties" = some (.obj inner)) (hFound : Stands inner path found) :
      Stands properties (name ++ "." ++ path) found

/-- The property is a field itself: it has no properties, or it is a list of objects. -/
def IsListed (property : Members) : Prop :=
  property.get? "properties" = none ∨ property.get? "type" = some (.str "nested")

/-- The names of a field: its own, and one for each further form. -/
def Names (path : Text) (property : Members) (name : Text) : Prop :=
  name = path ∨ ∃ forms : Members, property.get? "fields" = some (.obj forms) ∧
    ∃ form ∈ forms.map (·.1), name = path ++ "." ++ form

/-- The name of a field among some properties. -/
def IsFieldAmong (properties : Members) (name : Text) : Prop :=
  ∃ path property, Stands properties path property ∧ IsListed property ∧ Names path property name

/-- The name of a field of an index. -/
def IsFieldOf (index : Json) (name : Text) : Prop :=
  ∃ members mappings properties : Members, index = .obj members ∧
    members.get? "mappings" = some (.obj mappings) ∧
    mappings.get? "properties" = some (.obj properties) ∧ IsFieldAmong properties name

/-- The name of a field of one of the indices. -/
def IsField (answer : Members) (name : Text) : Prop :=
  ∃ index ∈ answer, IsFieldOf index.2 name

variable {name field path : Text} {known notes more properties property : Members}

theorem isNested_iff : isNested property = true ↔ property.get? "type" = some (.str "nested") := by
  unfold isNested Members.getD
  cases hType : property.get? "type" with
  | none => simp [Json.isText]
  | some type => cases type <;> simp [Json.isText]

/-- Names with something before them. -/
def Behind (front : Text) (names : Text → Prop) (name : Text) : Prop :=
  ∃ field, names field ∧ name = front ++ field

theorem behind_behind_iff {front middle : Text} {names : Text → Prop} :
    Behind (front ++ middle) names name ↔ Behind front (Behind middle names) name := by
  constructor
  · rintro ⟨field, hField, rfl⟩
    exact ⟨_, ⟨field, hField, rfl⟩, List.append_assoc _ _ _⟩
  · rintro ⟨_, ⟨field, hField, rfl⟩, rfl⟩
    exact ⟨field, hField, (List.append_assoc _ _ _).symm⟩

theorem behind_or_iff {front : Text} {names names' : Text → Prop} :
    Behind front (fun name => names name ∨ names' name) name ↔
      Behind front names name ∨ Behind front names' name := by
  simp only [Behind, or_and_right, exists_or]

/-- Behind something else a property is listed under the same names behind that. -/
theorem names_append_iff {front : Text} :
    Names (front ++ path) property name ↔ Behind front (Names path property) name := by
  constructor
  · rintro (rfl | ⟨forms, hForms, form, hForm, rfl⟩)
    · exact ⟨path, .inl rfl, rfl⟩
    · exact ⟨_, .inr ⟨forms, hForms, form, hForm, rfl⟩, by simp only [List.append_assoc]⟩
  · rintro ⟨rest, rfl | ⟨forms, hForms, form, hForm, rfl⟩, rfl⟩
    · exact .inl rfl
    · exact .inr ⟨forms, hForms, form, hForm, by simp only [List.append_assoc]⟩

/-- The name of a field that a property is, or of one within it. -/
def IsFieldAt (first : Text × Json) (name : Text) : Prop :=
  ∃ property : Members, first.2 = .obj property ∧
    (IsListed property ∧ Names first.1 property name ∨
      ∃ inner, property.get? "properties" = some (.obj inner) ∧
        Behind (first.1 ++ ".") (IsFieldAmong inner) name)

theorem isFieldAmong_iff : IsFieldAmong properties name ↔ ∃ n ∈ properties, IsFieldAt n name := by
  constructor
  · intro h
    obtain ⟨path, found, hStands, hListed, hNames⟩ := h
    cases hStands with
    | top h => exact ⟨_, h, found, rfl, .inl ⟨hListed, hNames⟩⟩
    | @within _ held inner _ first path h hInner hFound =>
        obtain ⟨rest, hRest, rfl⟩ := names_append_iff.mp hNames
        exact ⟨_, h, held, rfl, .inr ⟨inner, hInner, rest, ⟨path, found, hFound, hListed, hRest⟩, rfl⟩⟩
  · intro h
    obtain ⟨⟨first, _⟩, hMem, held, rfl, hField⟩ := h
    rcases hField with ⟨hListed, hNames⟩ | ⟨inner, hInner, rest, hRest, rfl⟩
    · exact ⟨first, held, .top hMem, hListed, hNames⟩
    · obtain ⟨path, found, hFound, hListed, hNames⟩ := hRest
      have hBelow : Names (first ++ "." ++ path) found (first ++ "." ++ rest) :=
        names_append_iff.mpr ⟨rest, hNames, rfl⟩
      exact ⟨_, found, .within hMem hInner hFound, hListed, hBelow⟩

theorem isFieldAmong_cons_iff {first : Text × Json} :
    IsFieldAmong (first :: properties) name ↔ IsFieldAt first name ∨ IsFieldAmong properties name := by
  rw [isFieldAmong_iff, isFieldAmong_iff, List.exists_mem_cons_iff]

theorem not_isFieldAmong_nil : ¬IsFieldAmong [] name := by
  simp [isFieldAmong_iff]

/-! ## Noting -/

/-- What is known, and of some further notes those whose names are new. -/
def union (known notes : Members) : Members :=
  notes.foldl (fun known n => note known n.1 n.2) known

theorem get?_note (known : Members) (name : Text) (about : Json) (other : Text) :
    (note known name about).get? other =
      (known.get? other).or (if other = name then some about else none) := by
  unfold note Members.has
  by_cases hOther : other = name
  · subst hOther
    cases hKnown : known.get? other with
    | none => simp [Members.get?_set_self]
    | some value => simp [hKnown]
  · rw [if_neg hOther, Option.or_none]
    split
    · rfl
    · exact Members.get?_set_of_ne hOther

theorem get?_union (known notes : Members) (name : Text) :
    (union known notes).get? name = (known.get? name).or (notes.get? name) := by
  induction notes generalizing known with
  | nil => exact (Option.or_none).symm
  | cons n notes ih =>
      show (union (note known n.1 n.2) notes).get? name = _
      rw [ih, get?_note, Option.or_assoc, Members.get?_cons]
      split <;> rfl

theorem union_append (known notes more : Members) :
    union known (notes ++ more) = union (union known notes) more :=
  List.foldl_append

/-- The walk notes the same things whatever is known before. It ends well exactly if the mapping is as
it should be, and then what it notes stands under exactly some names. -/
def Lists (walk : Members → Except Failure Members) (fine : Prop) (names : Text → Prop) : Prop :=
  ∃ notes : Except Failure Members, (∀ known, walk known = notes.map (union known)) ∧
    ((∃ found, notes = .ok found) ↔ fine) ∧
      ∀ found, notes = .ok found → ∀ name, name ∈ found.map (·.1) ↔ names name

namespace Lists

variable {walk next : Members → Except Failure Members} {fine fine' : Prop}
  {names names' : Text → Prop}

theorem nothing : Lists .ok True fun _ => False :=
  ⟨.ok [], fun _ => rfl, by simp, by simp⟩

theorem of_fails {failure : Failure} (hWalk : ∀ known, walk known = .error failure)
    (hFine : ¬fine) : Lists walk fine names :=
  ⟨.error failure, hWalk, by simp [hFine], by simp⟩

theorem one (name : Text) (about : Json) :
    Lists (fun known => .ok (note known name about)) True (· = name) :=
  ⟨.ok [(name, about)], fun _ => rfl, by simp, by simp⟩

theorem congr (h : Lists walk fine names) (hFine : fine ↔ fine')
    (hNames : fine' → ∀ name, names name ↔ names' name) : Lists walk fine' names' := by
  obtain ⟨notes, hWalk, hEnds, hFound⟩ := h
  have hEnds' := hEnds.trans hFine
  exact ⟨notes, hWalk, hEnds', fun found hOk name =>
    (hFound found hOk name).trans (hNames (hEnds'.mp ⟨found, hOk⟩) name)⟩

/-- A walk after another notes what both do. -/
theorem andThen (h : Lists walk fine names) (hNext : Lists next fine' names') :
    Lists (fun known => walk known >>= next) (fine ∧ fine') fun name => names name ∨ names' name := by
  obtain ⟨notes, hWalk, hEnds, hFound⟩ := h
  obtain ⟨more, hWalk', hEnds', hFound'⟩ := hNext
  rw [← hEnds, ← hEnds']
  cases notes with
  | error failure =>
      have hRun : ∀ known, walk known >>= next = .error failure := by
        intro known
        rw [hWalk]
        rfl
      exact ⟨.error failure, hRun, by simp, by simp⟩
  | ok found =>
      have hRun : ∀ known, walk known >>= next = more.map (union (union known found)) := by
        intro known
        rw [hWalk, ← hWalk']
        rfl
      cases more with
      | error failure => exact ⟨.error failure, hRun, by simp, by simp⟩
      | ok others =>
          refine ⟨.ok (found ++ others), fun known => (hRun known).trans ?_, by simp, ?_⟩
          · rw [Except.map, Except.map, union_append]
          · intro all hAll name
            cases hAll
            rw [List.map_append, List.mem_append, hFound found rfl, hFound' others rfl]

end Lists

/-! ## Walking a mapping -/

theorem lists_noteForms (index field : Text) (forms : Members) :
    Lists (fun known => noteForms index field known forms)
      (∀ form ∈ forms, ∃ held, form.2 = .obj held)
      fun name => ∃ form ∈ forms.map (·.1), name = field ++ "." ++ form := by
  induction forms with
  | nil => exact Lists.nothing.congr (by simp) (by simp)
  | cons first forms ih =>
      obtain ⟨name, form⟩ := first
      cases form with
      | obj held =>
          have hNote := Lists.one (field ++ "." ++ name) (about ((Members.get? held "type").getD .null) index)
          exact (hNote.andThen ih).congr (by simp) (by simp)
      | _ => exact Lists.of_fails (fun _ => rfl) (by simp)

theorem lists_noteField (index field : Text) (property : Members) :
    Lists (fun known => noteField index field known property) (HasForms property)
      (Names field property) := by
  have hNote := Lists.one field (about ((property.get? "type").getD (.str "object")) index)
  unfold noteField HasForms Names
  cases hForms : property.get? "fields" with
  | none => exact (hNote.andThen Lists.nothing).congr (by simp) (by simp)
  | some forms =>
      cases forms with
      | obj forms => exact (hNote.andThen (lists_noteForms index field forms)).congr (by simp) (by simp)
      | _ => exact Lists.of_fails (fun _ => rfl) (by simp)

theorem isProperty_iff_of_none (h : property.get? "properties" = none) :
    IsProperty property ↔ HasForms property := by
  constructor
  · intro hProperty
    cases hProperty with
    | plain _ hForms => exact hForms
    | object hInner _ _ => cases h.symm.trans hInner
    | nested hInner _ _ _ => cases h.symm.trans hInner
  · exact .plain h

theorem isProperty_iff_of_some {value : Json} (h : property.get? "properties" = some value) :
    IsProperty property ↔ (∃ inner, value = .obj inner ∧ AreProperties inner) ∧
      (isNested property = true → HasForms property) := by
  rw [isNested_iff]
  constructor
  · intro hProperty
    cases hProperty with
    | plain hInner _ => cases h.symm.trans hInner
    | object hInner hProperties hType =>
        cases h.symm.trans hInner
        exact ⟨⟨_, rfl, hProperties⟩, fun hNested => absurd hNested hType⟩
    | nested hInner hProperties _ hForms =>
        cases h.symm.trans hInner
        exact ⟨⟨_, rfl, hProperties⟩, fun _ => hForms⟩
  · rintro ⟨⟨inner, rfl, hProperties⟩, hForms⟩
    by_cases hType : property.get? "type" = some (.str "nested")
    · exact .nested h hProperties hType (hForms hType)
    · exact .object h hProperties hType

theorem areProperties_cons_iff {value : Json} :
    AreProperties ((name, value) :: properties) ↔
      (∃ property, value = .obj property ∧ IsProperty property) ∧ AreProperties properties := by
  constructor
  · intro h
    cases h with
    | cons hFirst hRest => exact ⟨⟨_, rfl, hFirst⟩, hRest⟩
  · rintro ⟨⟨property, rfl, hFirst⟩, hRest⟩
    exact .cons hFirst hRest

/-- The value holds properties, and the name is that of a field among them. -/
def IsFieldIn (value : Json) (name : Text) : Prop :=
  ∃ properties, value = .obj properties ∧ IsFieldAmong properties name

/-- A walk lists the fields of the properties that the value should hold. -/
def ListsFields (index : Text) (value : Json) : Prop :=
  ∀ front, Lists (fun known => walk index front known value)
    (∃ properties, value = .obj properties ∧ AreProperties properties) (Behind front (IsFieldIn value))

theorem isFieldAt_iff_of_none (h : property.get? "properties" = none) :
    IsFieldAt (name, .obj property) field ↔ Names name property field := by
  simp [IsFieldAt, IsListed, h]

theorem isFieldAt_iff_of_some {value : Json} (h : property.get? "properties" = some value) :
    IsFieldAt (name, .obj property) field ↔
      Behind (name ++ ".") (IsFieldIn value) field ∨
        isNested property = true ∧ Names name property field := by
  have hInner : (∃ inner, value = .obj inner ∧ Behind (name ++ ".") (IsFieldAmong inner) field) ↔
      Behind (name ++ ".") (IsFieldIn value) field := by
    constructor
    · rintro ⟨inner, hSame, path, hField, rfl⟩
      exact ⟨path, ⟨inner, hSame, hField⟩, rfl⟩
    · rintro ⟨path, ⟨inner, hSame, hField⟩, rfl⟩
      exact ⟨inner, hSame, path, hField, rfl⟩
  simp [IsFieldAt, IsListed, h, isNested_iff, ← hInner, or_comm]

/-- A property without properties of its own is noted itself. -/
theorem lists_walkOne_of_none {index front : Text} (h : property.get? "properties" = none)
    (hInner : ∀ known, walkInner index (front ++ name ++ ".") known property = none) :
    Lists (fun known => walkOne index front known (name, .obj property)) (IsProperty property)
      (Behind front (IsFieldAt (name, .obj property))) := by
  have hField := lists_noteField index (front ++ name) property
  have hWalk : (fun known => walkOne index front known (name, .obj property)) =
      fun known => noteField index (front ++ name) known property := by
    funext known
    rw [walkOne, hInner]
  rw [hWalk]
  apply hField.congr (isProperty_iff_of_none h).symm
  intro _ listed
  simp only [names_append_iff, Behind, isFieldAt_iff_of_none h]

/-- A property with properties of its own has them noted; it is noted itself only if it is a list of
objects. -/
theorem lists_walkOne_of_some {index front : Text} {value : Json}
    (h : property.get? "properties" = some value)
    (hInner : ∀ known, walkInner index (front ++ name ++ ".") known property =
      some (walk index (front ++ name ++ ".") known value))
    (hValue : ListsFields index value) :
    Lists (fun known => walkOne index front known (name, .obj property)) (IsProperty property)
      (Behind front (IsFieldAt (name, .obj property))) := by
  have hWithin := hValue (front ++ name ++ ".")
  have hWalk : (fun known => walkOne index front known (name, .obj property)) = fun known =>
      walk index (front ++ name ++ ".") known value >>= fun known =>
        if isNested property then noteField index (front ++ name) known property else .ok known := by
    funext known
    rw [walkOne, hInner]
    rfl
  have hFront : ∀ listed, Behind (front ++ name ++ ".") (IsFieldIn value) listed ↔
      Behind front (Behind (name ++ ".") (IsFieldIn value)) listed := by
    intro listed
    rw [List.append_assoc, behind_behind_iff]
  rw [hWalk]
  cases hNested : isNested property with
  | false =>
      apply (hWithin.andThen Lists.nothing).congr
      · simp [isProperty_iff_of_some h, hNested]
      · intro _ listed
        have hNames : ∀ field, IsFieldAt (name, .obj property) field ↔
            Behind (name ++ ".") (IsFieldIn value) field := by
          simp [isFieldAt_iff_of_some h, hNested]
        rw [or_false, hFront]
        simp only [Behind, hNames]
  | true =>
      have hField := lists_noteField index (front ++ name) property
      apply (hWithin.andThen hField).congr
      · simp [isProperty_iff_of_some h, hNested]
      · intro _ listed
        have hNames : ∀ field, IsFieldAt (name, .obj property) field ↔
            Behind (name ++ ".") (IsFieldIn value) field ∨ Names name property field := by
          simp [isFieldAt_iff_of_some h, hNested]
        simp only [hFront, names_append_iff, ← behind_or_iff]
        simp only [Behind, hNames]

mutual

theorem listsFields (index : Text) : (value : Json) → ListsFields index value
  | .obj properties => fun front => by
      have h := lists_walkAll index front properties
      have hWalk : (fun known => walk index front known (.obj properties)) =
          fun known => walkAll index front known properties := by
        funext known
        rw [walk]
      rw [hWalk]
      exact h.congr (by simp) (by simp [Behind, IsFieldIn])
  | .null | .bool _ | .int _ | .float _ | .str _ | .arr _ => fun _ =>
      Lists.of_fails (fun _ => by rw [walk]; simp) (by simp)

theorem lists_walkAll (index front : Text) : (properties : List (Text × Json)) →
    Lists (fun known => walkAll index front known properties) (AreProperties properties)
      (Behind front (IsFieldAmong properties))
  | [] => by
      have hWalk : (fun known => walkAll index front known []) = .ok := by
        funext known
        rw [walkAll]
      rw [hWalk]
      exact Lists.nothing.congr (by simp [AreProperties.nil]) (by simp [Behind, not_isFieldAmong_nil])
  | first :: properties => by
      have h := (lists_walkOne index front first).andThen (lists_walkAll index front properties)
      have hWalk : (fun known => walkAll index front known (first :: properties)) = fun known =>
          walkOne index front known first >>= fun known => walkAll index front known properties := by
        funext known
        rw [walkAll]
      rw [hWalk]
      apply h.congr areProperties_cons_iff.symm
      intro _ name
      rw [← behind_or_iff]
      simp only [Behind, isFieldAmong_cons_iff]

theorem lists_walkOne (index front : Text) : (first : Text × Json) →
    Lists (fun known => walkOne index front known first)
      (∃ property, first.2 = .obj property ∧ IsProperty property) (Behind front (IsFieldAt first))
  | (name, .obj property) => by
      have h : Lists (fun known => walkOne index front known (name, .obj property))
          (IsProperty property) (Behind front (IsFieldAt (name, .obj property))) := by
        rcases exists_walkInner index (front ++ name ++ ".") property with
          ⟨hNone, hInner⟩ | ⟨value, hSome, hInner, hValue⟩
        · exact lists_walkOne_of_none hNone hInner
        · exact lists_walkOne_of_some hSome hInner hValue
      exact h.congr (by simp) (fun _ _ => Iff.rfl)
  | (_, .null) | (_, .bool _) | (_, .int _) | (_, .float _) | (_, .str _) | (_, .arr _) =>
      Lists.of_fails (fun _ => by rw [walkOne]; simp) (by simp)

/-- The walk within a property, if it has properties, goes on among these. -/
theorem exists_walkInner (index front : Text) : (members : List (Text × Json)) →
    (Members.get? members "properties" = none ∧ ∀ known, walkInner index front known members = none) ∨
      ∃ value, Members.get? members "properties" = some value ∧
        (∀ known, walkInner index front known members = some (walk index front known value)) ∧
        ListsFields index value
  | [] => .inl ⟨rfl, fun _ => by rw [walkInner]⟩
  | (key, value) :: members => by
      simp only [Members.get?_cons, walkInner, walkMember]
      by_cases hKey : key = "properties"
      · exact .inr ⟨value, by simp [hKey], by simp [hKey], listsFields index value⟩
      · have hOther : Text.ofString "properties" ≠ key := Ne.symm hKey
        simpa [hKey, hOther] using exists_walkInner index front members

end

/-! ## Indices -/

/-- Behind nothing the names are the same. -/
theorem behind_nil_iff {names : Text → Prop} : Behind "" names name ↔ names name := by
  constructor
  · rintro ⟨field, hField, rfl⟩
    exact hField
  · intro h
    exact ⟨name, h, rfl⟩

/-- Of a mapping that may have no properties those are listed that it has. -/
theorem lists_walk_getD (title : Text) (held : Option Json) :
    Lists (fun known => walk title "" known (held.getD (.obj [])))
      (∀ value, held = some value → ∃ properties, value = .obj properties ∧ AreProperties properties)
      fun name => ∃ properties, held = some (.obj properties) ∧ IsFieldAmong properties name := by
  have h := listsFields title (held.getD (.obj [])) ""
  cases held with
  | none => exact h.congr (by simp [AreProperties.nil]) (by simp [Behind, IsFieldIn, not_isFieldAmong_nil])
  | some value => exact h.congr (by simp) (by simp [behind_nil_iff, IsFieldIn])

theorem noteIndex_obj (known : Members) (title : Text) (members : Members) :
    noteIndex known (title, .obj members) =
      ((members.get? "mappings").getD (.obj [])).memberOr "properties" (.obj []) >>=
        walk title "" known :=
  rfl

theorem lists_noteIndex (index : Text × Json) :
    Lists (fun known => noteIndex known index) (IsIndex index.2) (IsFieldOf index.2) := by
  obtain ⟨title, value⟩ := index
  cases value with
  | obj members =>
      cases hMappings : Members.get? members "mappings" with
      | none =>
          have hWalk : (fun known => noteIndex known (title, .obj members)) = fun known =>
              walk title "" known ((none : Option Json).getD (.obj [])) := by
            funext known
            rw [noteIndex_obj, hMappings]
            rfl
          rw [hWalk]
          exact (lists_walk_getD title none).congr (by simp [IsIndex, hMappings])
            (by simp [IsFieldOf, hMappings])
      | some mappings =>
          cases mappings with
          | obj held =>
              have hWalk : (fun known => noteIndex known (title, .obj members)) = fun known =>
                  walk title "" known ((Members.get? held "properties").getD (.obj [])) := by
                funext known
                rw [noteIndex_obj, hMappings]
                rfl
              rw [hWalk]
              exact (lists_walk_getD title _).congr (by simp [IsIndex, hMappings])
                (by simp [IsFieldOf, hMappings])
          | _ =>
              have hWalk : ∀ known, noteIndex known (title, .obj members) = .error .noMember := by
                intro known
                rw [noteIndex_obj, hMappings]
                rfl
              exact Lists.of_fails hWalk (by simp [IsIndex, hMappings])
  | _ => exact Lists.of_fails (fun _ => rfl) (by simp [IsIndex])

theorem lists_noteIndices (indices : Members) :
    Lists (fun known => noteIndices known indices) (IsMapping indices) (IsField indices) := by
  induction indices with
  | nil => exact Lists.nothing.congr (by simp [IsMapping]) (by simp [IsField])
  | cons index indices ih =>
      apply ((lists_noteIndex index).andThen ih).congr
      · simp only [IsMapping, List.forall_mem_cons]
      · intro _ name
        simp only [IsField, List.exists_mem_cons_iff]

theorem noteIndices_append (known first second : Members) :
    noteIndices known (first ++ second) =
      noteIndices known first >>= (noteIndices · second) := by
  induction first generalizing known with
  | nil => rfl
  | cons index first ih =>
      show noteIndex known index >>= (noteIndices · (first ++ second)) =
        (noteIndex known index >>= (noteIndices · first)) >>= (noteIndices · second)
      rw [bind_assoc]
      simp only [ih]

/-- The fields of an answer are found exactly if its mappings are as they should be. -/
theorem exists_fieldsMeta_iff {answer : Members} :
    (∃ known, fieldsMeta (.obj answer) = .ok known) ↔ IsMapping answer := by
  obtain ⟨notes, hWalk, hEnds, -⟩ := lists_noteIndices answer
  rw [← hEnds]
  have hMeta : fieldsMeta (.obj answer) = notes.map (union []) := hWalk []
  rw [hMeta]
  cases notes with
  | error failure => simp [Except.map]
  | ok found => simp [Except.map]

theorem mem_keys_iff_of_fieldsMeta {answer : Members} (h : fieldsMeta (.obj answer) = .ok known) :
    name ∈ known.map (·.1) ↔ IsField answer name := by
  obtain ⟨notes, hWalk, -, hFound⟩ := lists_noteIndices answer
  have hMeta : fieldsMeta (.obj answer) = notes.map (union []) := hWalk []
  cases notes with
  | error failure => cases h.symm.trans hMeta
  | ok found =>
      cases h.symm.trans hMeta
      rw [← hFound found rfl, Members.mem_keys_iff, Members.mem_keys_iff, get?_union]
      rfl

/-- What is found in the indices of two answers together: an index tells of a field only if none before
it does. The fields are named after the properties, at any depth, and after their further forms. -/
theorem fieldsMeta_append {first second : Members} (hFirst : IsMapping first)
    (hSecond : IsMapping second) :
    ∃ known known₁ known₂, fieldsMeta (.obj (first ++ second)) = .ok known ∧
      fieldsMeta (.obj first) = .ok known₁ ∧ fieldsMeta (.obj second) = .ok known₂ ∧
      (∀ name, known.get? name = (known₁.get? name).or (known₂.get? name)) ∧
      ∀ name, name ∈ known.map (·.1) ↔ IsField (first ++ second) name := by
  obtain ⟨known₁, hKnown₁⟩ := exists_fieldsMeta_iff.mpr hFirst
  obtain ⟨known₂, hKnown₂⟩ := exists_fieldsMeta_iff.mpr hSecond
  obtain ⟨notes, hWalk, -, -⟩ := lists_noteIndices second
  have hSecondMeta : fieldsMeta (.obj second) = notes.map (union []) := hWalk []
  cases notes with
  | error failure => cases hKnown₂.symm.trans hSecondMeta
  | ok notes =>
      cases hKnown₂.symm.trans hSecondMeta
      have hBoth : fieldsMeta (.obj (first ++ second)) = .ok (union known₁ notes) := by
        calc fieldsMeta (.obj (first ++ second))
            = noteIndices [] first >>= (noteIndices · second) := noteIndices_append [] first second
          _ = noteIndices known₁ second := by
              rw [show noteIndices [] first = .ok known₁ from hKnown₁]
              rfl
          _ = .ok (union known₁ notes) := hWalk known₁
      refine ⟨_, known₁, union [] notes, hBoth, hKnown₁, hKnown₂, fun name => ?_, fun name => ?_⟩
      · rw [get?_union, get?_union]
        rfl
      · exact mem_keys_iff_of_fieldsMeta hBoth

/-- Mappings with an object and a further form of a field. -/
def webMappings : Members :=
  [("web", .obj [("mappings", .obj [("properties", .obj [
    ("host", .obj [("type", .str "ip")]),
    ("user", .obj [("properties", .obj [("name", .obj [("type", .str "text"),
      ("fields", .obj [("raw", .obj [("type", .str "keyword")])])])])])])])])]

/-- Mappings with a list of objects and a dotted name. -/
def mailMappings : Members :=
  [("mail", .obj [("mappings", .obj [("properties", .obj [
    ("host", .obj [("type", .str "keyword")]), ("user.name", .obj [("type", .str "keyword")]),
    ("tags", .obj [("type", .str "nested"), ("properties", .obj [
      ("key", .obj [("type", .str "keyword")])])])])])])]

theorem fieldsMeta_append_web_mail : IsMapping webMappings ∧ IsMapping mailMappings ∧
    ∃ known known₁ known₂, fieldsMeta (.obj (webMappings ++ mailMappings)) = .ok known ∧
      fieldsMeta (.obj webMappings) = .ok known₁ ∧ fieldsMeta (.obj mailMappings) = .ok known₂ ∧
      (∀ name, known.get? name = (known₁.get? name).or (known₂.get? name)) ∧
      ∀ name, name ∈ known.map (·.1) ↔ IsField (webMappings ++ mailMappings) name :=
  have hWeb : IsMapping webMappings := exists_fieldsMeta_iff.mp (exists_eq_ok (by decide +kernel))
  have hMail : IsMapping mailMappings := exists_fieldsMeta_iff.mp (exists_eq_ok (by decide +kernel))
  ⟨hWeb, hMail, fieldsMeta_append hWeb hMail⟩

example : (fieldsMeta (.obj (webMappings ++ mailMappings))).toOption.map (·.map (·.1)) =
    some (["host", "user.name", "user.name.raw", "tags.key", "tags"] : List Text) := by
  decide +kernel

end LogQuery.Index.Mapping

import LogQuery.Json.Access
import LogQuery.Proofs.Json.Members
import LogQuery.Proofs.Result

/-! Documents whose objects have each key once, as all documents have that a text was read to.
Whatever is taken out of such a document is one too. -/

namespace LogQuery.Json

/-- No object in the document has two members with one key. -/
inductive HasDistinctKeys : Json → Prop
  | scalar {value : Json} (hScalar : value.isScalar = true) : HasDistinctKeys value
  | arr {items : List Json} (hItems : ∀ item ∈ items, HasDistinctKeys item) :
      HasDistinctKeys (.arr items)
  | obj {members : Members} (hKeys : (members.map (·.1)).Nodup)
      (hValues : ∀ m ∈ members, HasDistinctKeys m.2) : HasDistinctKeys (.obj members)

namespace HasDistinctKeys

variable {value other held : Json} {parts : List Json} {members : Members} {key : Text}

theorem of_mem {item : Json} (h : HasDistinctKeys (.arr parts)) (hMem : item ∈ parts) :
    item.HasDistinctKeys := by
  cases h with
  | scalar hScalar => cases hScalar
  | arr hItems => exact hItems item hMem

theorem keys (h : HasDistinctKeys (.obj members)) : (members.map (·.1)).Nodup := by
  cases h with
  | scalar hScalar => cases hScalar
  | obj hKeys hValues => exact hKeys

theorem of_mem_members {m : Text × Json} (h : HasDistinctKeys (.obj members))
    (hMem : m ∈ members) : m.2.HasDistinctKeys := by
  cases h with
  | scalar hScalar => cases hScalar
  | obj hKeys hValues => exact hValues m hMem

theorem orElse (h : value.HasDistinctKeys) (hOther : other.HasDistinctKeys) :
    (value.orElse other).HasDistinctKeys := by
  unfold Json.orElse
  split
  · exact h
  · exact hOther

theorem of_memberOr (h : value.HasDistinctKeys) (hOther : other.HasDistinctKeys)
    (hHeld : value.memberOr key other = .ok held) : held.HasDistinctKeys := by
  simp only [memberOr, bind_eq_ok_iff, pure_eq_ok_iff] at hHeld
  obtain ⟨found?, hFound, rfl⟩ := hHeld
  cases value with
  | obj members =>
      cases hFound
      cases hGet : Members.get? members key with
      | none => exact hOther
      | some found => exact h.of_mem_members (Members.mem_of_get? hGet)
  | _ => cases hFound

/-- The code points of a text and the keys of an object are texts, and so have no keys. -/
theorem of_parts (h : value.HasDistinctKeys) (hParts : value.parts = .ok parts) :
    ∀ part ∈ parts, part.HasDistinctKeys := by
  cases value with
  | arr items =>
      cases hParts
      exact fun part hPart => h.of_mem hPart
  | str s =>
      cases hParts
      intro part hPart
      obtain ⟨c, -, rfl⟩ := List.mem_map.mp hPart
      exact .scalar rfl
  | obj members =>
      cases hParts
      intro part hPart
      obtain ⟨m, -, rfl⟩ := List.mem_map.mp hPart
      exact .scalar rfl
  | _ => cases hParts

theorem of_asPair (h : value.HasDistinctKeys) (hPair : value.asPair = .ok (held, other)) :
    held.HasDistinctKeys ∧ other.HasDistinctKeys := by
  obtain ⟨parts, hParts, hPair⟩ := bind_eq_ok_iff.mp hPair
  split at hPair
  · cases hPair
    have hBoth := h.of_parts hParts
    exact ⟨hBoth _ List.mem_cons_self, hBoth _ (List.mem_cons_of_mem _ List.mem_cons_self)⟩
  · cases hPair
  · cases hPair
  · cases hPair

end HasDistinctKeys

end LogQuery.Json

import LogQuery.Proofs.Result
import LogQuery.Token.FileReference

/-! Where paths lead. What is added at a path is found at it, and an absolute path leads to the same
file from every folder, so that a token which names its file by one always stands for the same. -/

namespace LogQuery

variable {folder : Folder} {path : Text} {bytes : List Nat} {names : List FileName} {name : FileName}

/-- The name leads on to something of its own. -/
def FileName.IsOwn (name : FileName) : Prop :=
  name.stays = false ∧ name ≠ up

namespace Folder

theorem follow_cons (folder : Folder) (place : Place) (h : names ≠ []) :
    folder.follow place (name :: names) =
      if folder.hasFolder (place.step name) then folder.follow (place.step name) names else none := by
  cases names with
  | nil => exact absurd rfl h
  | cons next rest => rfl

/-- The names of folders that there are lead to the place after the last of them. -/
theorem follow_append {place : Place} (hName : name.IsOwn)
    (hTrail : ∀ p ∈ place.trail names, folder.hasFolder p = true) :
    folder.follow place (names ++ [name]) = folder.files.lookup (place.reach names ++ [name]) := by
  induction names generalizing place with
  | nil =>
      have hUp : (name == FileName.up) = false := by simpa using hName.2
      simp [follow, hName.1, hUp, Place.reach]
  | cons first rest ih =>
      have hFirst := hTrail (place.step first) List.mem_cons_self
      rw [List.cons_append, follow_cons folder place (by simp), if_pos hFirst]
      apply ih
      intro p hMem
      exact hTrail p (List.mem_cons_of_mem _ hMem)

theorem hasFolder_make {place : Place} {places : List Place} (h : place ∈ places) :
    (folder.make places).hasFolder place = true := by
  have hMem : place ∈ (folder.make places).folders := List.mem_append_right _ h
  simp [hasFolder, hMem]

/-- What is added at a path is found at it. -/
theorem file?_add (folder : Folder) (file : File) (hBytes : FileName.pathBytes? path = some bytes)
    (hLength : bytes.length ≤ maxPathBytes)
    (hLast : (FileName.split bytes).getLast? = some name) (hName : name.IsOwn) :
    (folder.add path file).file? path = some file := by
  obtain ⟨names, hSplit⟩ := List.getLast?_eq_some_iff.mp hLast
  have hAdd : folder.add path file =
      (folder.make ((folder.start bytes).trail names)).put
        ((folder.start bytes).reach names ++ [name]) file := by
    cases name with
    | nil => cases hName.1
    | cons b bs => simp [add, hBytes, hSplit]
  have hFollow : (folder.add path file).follow (folder.start bytes) (names ++ [name]) =
      some file := by
    rw [follow_append hName]
    · simp [hAdd, put]
    · intro p hMem
      rw [hAdd]
      exact hasFolder_make hMem
  have hStart : (folder.add path file).start bytes = folder.start bytes := by
    rw [hAdd]
    rfl
  rw [file?, hBytes, Option.bind_eq_bind, Option.bind_some, if_neg (Nat.not_lt.mpr hLength), hStart,
    hSplit, hFollow]

theorem follow_withPlace (folder : Folder) (home place : Place) (names : List FileName) :
    ({ folder with place := home } : Folder).follow place names = folder.follow place names := by
  induction names generalizing place with
  | nil => rfl
  | cons name rest ih =>
      cases rest with
      | nil => rfl
      | cons next rest =>
          have hSome := List.cons_ne_nil next rest
          rw [follow_cons _ place hSome, follow_cons folder place hSome, ih]
          rfl

theorem start_of_absolute (hAbsolute : path.head? = some (.char '/'))
    (hBytes : FileName.pathBytes? path = some bytes) : folder.start bytes = [] := by
  obtain ⟨rest, rfl⟩ := List.head?_eq_some_iff.mp hAbsolute
  obtain ⟨parts, hParts, rfl⟩ := Option.map_eq_some_iff.mp hBytes
  cases mapM_eq_some_iff.mp hParts with
  | cons hSlash hRest =>
      cases hSlash
      rfl

/-- An absolute path leads to the same file from every folder. -/
theorem file?_of_absolute (folder : Folder) (home : Place)
    (hAbsolute : path.head? = some (.char '/')) :
    ({ folder with place := home } : Folder).file? path = folder.file? path := by
  cases hBytes : FileName.pathBytes? path with
  | none => simp [file?, hBytes]
  | some bytes =>
      simp only [file?, hBytes, Option.bind_eq_bind, Option.bind_some]
      rw [start_of_absolute hAbsolute hBytes, start_of_absolute hAbsolute hBytes, follow_withPlace]

end Folder

/-- A token whose file is named by an absolute path stands for the same in every folder. -/
theorem Token.FileReference.condition?_of_absolute {token : Text} {r : Reference}
    (h : reference? token = some r) (hAbsolute : r.file.head? = some (.char '/'))
    (folder : Folder) (home : Place) :
    condition? { folder with place := home } token = condition? folder token := by
  rw [condition?, condition?, h]
  dsimp only
  rw [Folder.file?_of_absolute folder home hAbsolute]

example :
    (Token.FileReference.condition? (Folder.empty.add "/lists/ips.txt" (.text "10.0.0.1\n"))
      "src_ip:/lists/ips.txt").result =
      .ok (some (Clause.terms "src_ip" [.str "10.0.0.1"])) := by
  cbv

end LogQuery

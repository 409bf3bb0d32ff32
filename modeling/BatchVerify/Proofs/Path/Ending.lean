import BatchVerify.Proofs.Path.Extension
import BatchVerify.Proofs.Text.Ascii

/-!
# How a path ends

The name of a path can be read off its bytes (`Path.name?_eq_some_iff`): it stands alone or behind a
separator, and nothing comes after it but separators, each with at most a `.` behind it. So a path is
a source just when its bytes end so in a stem, a dot and the extension
(`Source.matching?_exact`).
-/

namespace BatchVerify

theorem Component.ofPiece?_eq_none_iff {piece : Bytes} :
    ofPiece? piece = none ↔ piece = [] ∨ piece = [Bytes.dot] := by
  unfold ofPiece?
  by_cases hidle : piece = [] ∨ piece = [Bytes.dot]
  · simp [hidle]
  · rw [if_neg hidle]
    split_ifs <;> simp [hidle]

namespace Path

/-- Bytes that end in a name, but for what does not count behind it. -/
inductive EndsIn (name : Bytes) : Bytes → Prop
  | alone : EndsIn name name
  | behind (before : Bytes) : EndsIn name (before ++ Bytes.slash :: name)
  /-- A separator at the end does not count. -/
  | separator {bytes : Bytes} (h : EndsIn name bytes) : EndsIn name (bytes ++ [Bytes.slash])
  /-- Nor does a `.` behind a separator. -/
  | current {bytes : Bytes} (h : EndsIn name bytes) :
    EndsIn name (bytes ++ [Bytes.slash, Bytes.dot])

variable {path : Path} {name bytes before piece : Bytes}

/-- What follows the last separator stands for the last component, or for nothing. -/
theorem components_append_piece (before : Bytes) (hpiece : Bytes.slash ∉ piece) :
    (Path.mk (before ++ Bytes.slash :: piece)).components =
      (if before = [] then [.root] else (Path.mk before).components) ++
        (Component.ofPiece? piece).toList := by
  have hmap : (Pieces.split Bytes.slash piece).filterMap Component.ofPiece? =
      (Component.ofPiece? piece).toList := by
    rw [Pieces.split_of_not_mem piece hpiece]
    cases hof : Component.ofPiece? piece <;> simp [hof]
  by_cases hbefore : before = []
  · rw [if_pos hbefore, hbefore, List.nil_append, components_slash_append, hmap]
    rfl
  · rw [if_neg hbefore, components_append_slash hbefore, hmap]

theorem name?_append_name (before : Bytes) (hname : ProperName name) :
    (Path.mk (before ++ Bytes.slash :: name)).name? = some name := by
  have hcomponents := components_append_piece before hname.slash
  rw [hname.ofPiece?] at hcomponents
  exact name?_of_components hcomponents

/-- A piece that stands for nothing takes no name away, and gives none. -/
theorem name?_append_idle (before : Bytes) (hpiece : piece = [] ∨ piece = [Bytes.dot]) :
    (Path.mk (before ++ Bytes.slash :: piece)).name? = (Path.mk before).name? := by
  have hslash : Bytes.slash ∉ piece := by
    rcases hpiece with rfl | rfl <;> decide
  have hcomponents := components_append_piece before hslash
  rw [Component.ofPiece?_eq_none_iff.mpr hpiece, Option.toList_none, List.append_nil] at hcomponents
  unfold name?
  rw [hcomponents]
  by_cases hbefore : before = []
  · -- neither the root nor the empty path has a name
    rw [if_pos hbefore, hbefore, components_nil]
    rfl
  · rw [if_neg hbefore]

theorem EndsIn.name?_eq (h : EndsIn name bytes) (hname : ProperName name) :
    (Path.mk bytes).name? = some name := by
  induction h with
  | alone =>
    have hjoined := name?_join_name ⟨[]⟩ hname
    have hrelative := isAbsolute_of_not_mem hname.slash
    simpa [join, hrelative] using hjoined
  | behind before => exact name?_append_name before hname
  | @separator bytes h ih => exact (name?_append_idle bytes (Or.inl rfl)).trans ih
  | @current bytes h ih => exact (name?_append_idle bytes (Or.inr rfl)).trans ih

theorem endsIn_of_name? (h : (Path.mk bytes).name? = some name) : EndsIn name bytes := by
  -- each separator that is cut off at the end leaves fewer bytes
  induction hlength : bytes.length using Nat.strong_induction_on generalizing bytes with
  | _ length ih =>
    cases hcut : Pieces.cutLast? Bytes.slash bytes with
    | none =>
      have hslash : Bytes.slash ∉ bytes := Pieces.cutLast?_eq_none_iff.mp hcut
      have hmem : .name name ∈ (Path.mk bytes).components := by
        rw [components_of_name? h]
        exact List.mem_append_right _ List.mem_cons_self
      obtain ⟨piece, hpiece, hof⟩ := mem_split_of_name_mem hmem
      rw [Pieces.split_of_not_mem bytes hslash, List.mem_singleton] at hpiece
      have hname : bytes = name := hpiece ▸ (Component.ofPiece?_eq_name_iff.mp hof).1
      rw [hname]
      exact .alone
    | some cut =>
      obtain ⟨before, piece⟩ := cut
      obtain ⟨rfl, hslash⟩ := Pieces.cutLast?_eq_some_iff.mp hcut
      have hshorter : before.length < length := by
        rw [List.length_append, List.length_cons] at hlength
        omega
      cases hof : Component.ofPiece? piece with
      | none =>
        have hidle := Component.ofPiece?_eq_none_iff.mp hof
        rw [name?_append_idle before hidle] at h
        have hends := ih before.length hshorter h rfl
        rcases hidle with rfl | rfl
        · exact .separator hends
        · exact .current hends
      | some component =>
        have hcomponents := components_append_piece before hslash
        rw [hof, Option.toList_some] at hcomponents
        have hlast := components_of_name? h
        rw [hcomponents] at hlast
        have hcomponent : component = .name name := by
          simpa using (List.append_inj' hlast rfl).2
        rw [hcomponent] at hof
        rw [(Component.ofPiece?_eq_name_iff.mp hof).1]
        exact .behind before

/-- The name of a path is the ordinary component that its bytes end in. -/
theorem name?_eq_some_iff : path.name? = some name ↔ ProperName name ∧ EndsIn name path.bytes := by
  constructor
  · intro h
    exact ⟨proper_of_name? h, endsIn_of_name? h⟩
  · rintro ⟨hname, hends⟩
    exact hends.name?_eq hname

end Path

/-- A path is a source just when its bytes end in a component that is a stem, a dot and the extension,
which has no dot. The source is then the path as it is spelled, with that stem. -/
theorem Source.matching?_exact (path : Path) (extension : String) :
    ((Source.matching? path extension).isSome ↔
      ∃ stem, stem ≠ [] ∧ '.' ∉ extension.toList ∧
        ProperName (stem ++ Bytes.dot :: Utf8.encode extension) ∧
        Path.EndsIn (stem ++ Bytes.dot :: Utf8.encode extension) path.bytes) ∧
    ∀ source, Source.matching? path extension = some source ↔
      source.path = path ∧ source.stem ≠ [] ∧ '.' ∉ extension.toList ∧
        ProperName (source.stem ++ Bytes.dot :: Utf8.encode extension) ∧
        Path.EndsIn (source.stem ++ Bytes.dot :: Utf8.encode extension) path.bytes := by
  have hsource (source : Source) : Source.matching? path extension = some source ↔
      source.path = path ∧ source.stem ≠ [] ∧ '.' ∉ extension.toList ∧
        ProperName (source.stem ++ Bytes.dot :: Utf8.encode extension) ∧
        Path.EndsIn (source.stem ++ Bytes.dot :: Utf8.encode extension) path.bytes := by
    rw [Source.matching?_eq_some_iff, Path.name?_eq_some_iff, Utf8.dot_mem_encode_iff]
    tauto
  refine ⟨?_, hsource⟩
  rw [Option.isSome_iff_exists]
  constructor
  · rintro ⟨source, hmatching⟩
    obtain ⟨-, hends⟩ := (hsource source).mp hmatching
    exact ⟨source.stem, hends⟩
  · rintro ⟨stem, hends⟩
    exact ⟨⟨path, stem⟩, (hsource ⟨path, stem⟩).mpr ⟨rfl, hends⟩⟩

/-- A name of dots alone has the empty extension, and what is behind it does not count. -/
example : Source.matching? (Path.ofString ".././/..././/") "" =
    some ⟨Path.ofString ".././/..././/", Utf8.encode ".."⟩ := by
  decide +kernel

end BatchVerify

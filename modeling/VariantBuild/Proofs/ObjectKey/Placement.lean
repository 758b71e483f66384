import VariantBuild.ObjectCache
import VariantBuild.Proofs.ObjectKey.Collision
import VariantBuild.Proofs.Path.Components
/-!
# Places of objects

In one cache two objects are in the same place exactly if they have the same name
(`samePlace_objectPath_iff`): whatever the directory of the cache looks like, the name is one component
below it. So the law of collisions is a law of places, and it says which sources share an object under
one flag set. Two normal forms bring them together: a directory counts with forward separators only, and
a stem has lost one `.c` (`KeyDeriver.stem_eq_iff`).
-/

namespace VariantBuild

namespace KeyDeriver

variable {s s₁ s₂ : Path} {name n₁ n₂ : String}

/-! ## Stems -/

/-- Whether a name keeps its end in a stem: it does not end with `.c`, or it is nothing else. -/
def KeepsEnd (name : String) : Prop :=
  ∀ head, name = head ++ ".c" → head = ""

/-- Two names with one stem: the same name, or one name with and without the `.c` that is dropped. -/
def ShareStem (n₁ n₂ : String) : Prop :=
  n₁ = n₂ ∨ (n₁ = n₂ ++ ".c" ∧ KeepsEnd n₂) ∨ (n₂ = n₁ ++ ".c" ∧ KeepsEnd n₁)

instance (name : String) : Decidable (KeepsEnd name) :=
  decidable_of_iff ((Text.beforeSuffix ".c" name).all (· == "") = true) <| by
    rw [Option.all_eq_true]
    exact forall_congr' fun head => by
      rw [Text.beforeSuffix_eq_some_iff, beq_iff_eq]

instance (n₁ n₂ : String) : Decidable (ShareStem n₁ n₂) :=
  inferInstanceAs (Decidable (_ ∨ _))

theorem append_c_inj {a b : String} (h : a ++ ".c" = b ++ ".c") : a = b := by
  have hchars := congrArg String.toList h
  rw [String.toList_append, String.toList_append] at hchars
  exact String.toList_inj.1 (List.append_cancel_right hchars)

theorem stem_of_fileName? (h : s.fileName? = some name) :
    stem s = match Text.beforeSuffix ".c" name with
      | some head => if head.isEmpty then name else head
      | none => name := by
  -- the definition is opened as it stands: its equation takes long to check
  delta stem
  rw [h]
  rfl

/-- A stem is the name without `.c`, or the name itself where it keeps its end. -/
theorem stem_cases (h : s.fileName? = some name) :
    (stem s ≠ "" ∧ name = stem s ++ ".c") ∨ (stem s = name ∧ KeepsEnd name) := by
  rw [stem_of_fileName? h]
  cases hcut : Text.beforeSuffix ".c" name with
  | none =>
    refine .inr ⟨rfl, ?_⟩
    intro head hhead
    rw [Text.beforeSuffix_eq_some_iff.2 hhead] at hcut
    cases hcut
  | some head =>
    have hname := Text.beforeSuffix_eq_some_iff.1 hcut
    by_cases hempty : head = ""
    · refine .inr ⟨by simp [hempty], ?_⟩
      rintro other hother
      rw [← hempty]
      exact append_c_inj (hother.symm.trans hname)
    · exact .inl (by simpa [hempty] using hname)

theorem shareStem_comm : ShareStem n₁ n₂ ↔ ShareStem n₂ n₁ := by
  rw [ShareStem, ShareStem, eq_comm (a := n₁) (b := n₂), or_comm (b := n₂ = n₁ ++ ".c" ∧ KeepsEnd n₁)]

/-- A name with `.c` shares its stem with a name that keeps its end if that is what remains of it. -/
theorem shareStem_append_c_iff {head : String} (hhead : head ≠ "") (hname : name ≠ "")
    (hkeeps : KeepsEnd name) : ShareStem (head ++ ".c") name ↔ head = name := by
  constructor
  · rintro (h | ⟨h, -⟩ | ⟨h, hlost⟩)
    · exact absurd (hkeeps head h.symm) hhead
    · exact append_c_inj h
    · exact absurd (hlost head rfl) hhead
  · rintro rfl
    exact .inr (.inl ⟨rfl, hkeeps⟩)

theorem stem_eq_iff (h₁ : s₁.fileName? = some n₁) (h₂ : s₂.fileName? = some n₂) :
    stem s₁ = stem s₂ ↔ ShareStem n₁ n₂ := by
  have hne₁ : n₁ ≠ "" := (Path.isFileName_of_fileName? h₁).ne_empty
  have hne₂ : n₂ ≠ "" := (Path.isFileName_of_fileName? h₂).ne_empty
  rcases stem_cases h₁ with ⟨hlost₁, hname₁⟩ | ⟨hstem₁, hkeeps₁⟩ <;>
    rcases stem_cases h₂ with ⟨hlost₂, hname₂⟩ | ⟨hstem₂, hkeeps₂⟩
  · -- both lose `.c`
    constructor
    · intro h
      exact .inl (by rw [hname₁, hname₂, h])
    · rintro (h | ⟨-, hkeeps⟩ | ⟨-, hkeeps⟩)
      · exact append_c_inj (hname₁.symm.trans (h.trans hname₂))
      · exact absurd (hkeeps _ hname₂) hlost₂
      · exact absurd (hkeeps _ hname₁) hlost₁
  · rw [hstem₂, hname₁, shareStem_append_c_iff hlost₁ hne₂ hkeeps₂]
  · rw [hstem₁, hname₂, shareStem_comm, shareStem_append_c_iff hlost₂ hne₁ hkeeps₁, eq_comm]
  · -- neither loses anything
    rw [hstem₁, hstem₂]
    constructor
    · exact Or.inl
    · rintro (h | ⟨h, -⟩ | ⟨h, -⟩)
      · exact h
      · exact absurd (hkeeps₁ _ h) hne₂
      · exact absurd (hkeeps₂ _ h) hne₁

theorem noSeparator_stem (s : Path) : '/' ∉ (stem s).toList := by
  cases h : s.fileName? with
  | none =>
    have hstem : stem s = "" := by
      delta stem
      rw [h]
      rfl
    simp [hstem]
  | some name =>
    have hname := (Path.isFileName_of_fileName? h).noSeparator
    rcases stem_cases h with ⟨-, heq⟩ | ⟨heq, -⟩
    · rw [heq, String.toList_append] at hname
      exact fun hmem => hname (List.mem_append_left _ hmem)
    · rwa [heq]

/-! ## Places -/

/-- The name of an object can stand below a path: no part of it holds a separator, and it holds a dash. -/
theorem isFileName_fileName (k : KeyDeriver) (s : Path) (f : FlagSet) :
    Path.IsFileName (k.derive s f).fileName := by
  have hdash : '-' ∈ (k.derive s f).fileName.toList := by simp [ObjectKey.toList_fileName]
  have hne : ∀ text : String, '-' ∉ text.toList → (k.derive s f).fileName ≠ text := by
    rintro text htext rfl
    exact htext hdash
  refine ⟨?_, ?_, hne ".." (by decide)⟩
  · rw [ObjectKey.toList_fileName]
    have hdirectory : '/' ∉ (k.derive s f).directoryHash.toList := (Numeral.notMem_base36 _).2
    have hid : '/' ∉ (Numeral.base36 (k.derive s f).flagId).toList := (Numeral.notMem_base36 _).2
    have hstem : '/' ∉ (k.derive s f).stem.toList := by
      simpa only [derive] using noSeparator_stem s
    simp [hdirectory, hid, hstem]
  · have hempty := hne "" (by decide)
    have hhere := hne "." (by decide)
    simp [Path.isVoid, hempty, hhere]

end KeyDeriver

namespace ObjectCache

open KeyDeriver

variable {s₁ s₂ : Path} {n₁ n₂ : String} {f f₁ f₂ : FlagSet}

/-- An object is a name below the cache directory. -/
theorem exists_objectPath_eq (c : ObjectCache) (source : Path) (f : FlagSet) :
    ∃ name, Path.IsFileName name ∧ c.objectPath source f = c.directory.joinText name := by
  rw [objectPath]
  exact ⟨_, c.deriver.isFileName_fileName source f, rfl⟩

/-- Objects of one cache are in the same place exactly if they have the same name. -/
theorem samePlace_objectPath_iff (c : ObjectCache) :
    (c.objectPath s₁ f₁).SamePlace (c.objectPath s₂ f₂) ↔
      (c.deriver.derive s₁ f₁).fileName = (c.deriver.derive s₂ f₂).fileName := by
  rw [objectPath, objectPath]
  exact Path.samePlace_joinText_iff _ (c.deriver.isFileName_fileName s₁ f₁)
    (c.deriver.isFileName_fileName s₂ f₂)

/-- Under one flag set only the directory and the stem tell objects apart. -/
theorem samePlace_objectPath_of_sources_iff (c : ObjectCache) :
    (c.objectPath s₁ f).SamePlace (c.objectPath s₂ f) ↔
      lowBits 32 (c.deriver.digest (directoryText s₁)) =
        lowBits 32 (c.deriver.digest (directoryText s₂)) ∧
      stem s₁ = stem s₂ := by
  rw [samePlace_objectPath_iff, fileName_derive_inj]
  simp only [derive, ObjectKey.mk.injEq, directoryHash, Numeral.base36_inj, and_true]

/-- A directory without backward separators counts as it is spelled. -/
theorem directoryText_eq {s d : Path} (hd : s.parent? = some d) (h : '\\' ∉ d.text.toList) :
    directoryText s = d.text := by
  simp only [directoryText, hd]
  rw [← String.toList_inj, String.toList_map]
  refine (List.map_congr_left fun c hc => if_neg ?_).trans (List.map_id _)
  rintro rfl
  exact h hc

/-- Which sources share an object under one flag set: those whose directories have one digest, with
forward separators, and whose names share a stem. Where directories have forward separators only and
different ones have different digests, different sources share an object in one case only: they are in
one directory, and the name of one is that of the other with a `.c` that is dropped. -/
theorem samePlace_objectPath_sources (c : ObjectCache) (f : FlagSet) (s₁ s₂ : Path) (n₁ n₂ : String)
    (h₁ : s₁.fileName? = some n₁) (h₂ : s₂.fileName? = some n₂) :
    ((c.objectPath s₁ f).SamePlace (c.objectPath s₂ f) ↔
      lowBits 32 (c.deriver.digest (directoryText s₁)) =
        lowBits 32 (c.deriver.digest (directoryText s₂)) ∧
      ShareStem n₁ n₂) ∧
    ∃ d₁ d₂, s₁.parent? = some d₁ ∧ s₂.parent? = some d₂ ∧
      (¬ s₁.SamePlace s₂ → '\\' ∉ d₁.text.toList → '\\' ∉ d₂.text.toList →
        (¬ d₁.SamePlace d₂ →
          lowBits 32 (c.deriver.digest d₁.text) ≠ lowBits 32 (c.deriver.digest d₂.text)) →
        (c.objectPath s₁ f).SamePlace (c.objectPath s₂ f) →
          d₁.SamePlace d₂ ∧ n₁ ≠ n₂ ∧ ShareStem n₁ n₂) := by
  have hlaw : (c.objectPath s₁ f).SamePlace (c.objectPath s₂ f) ↔
      lowBits 32 (c.deriver.digest (directoryText s₁)) =
        lowBits 32 (c.deriver.digest (directoryText s₂)) ∧
      ShareStem n₁ n₂ := by
    rw [samePlace_objectPath_of_sources_iff, stem_eq_iff h₁ h₂]
  obtain ⟨d₁, hd₁, hcomponents₁⟩ := Path.exists_parent_of_fileName? h₁
  obtain ⟨d₂, hd₂, hcomponents₂⟩ := Path.exists_parent_of_fileName? h₂
  refine ⟨hlaw, d₁, d₂, hd₁, hd₂, ?_⟩
  intro hdiffer hback₁ hback₂ hdigest hsame
  obtain ⟨heq, hshare⟩ := hlaw.1 hsame
  rw [directoryText_eq hd₁ hback₁, directoryText_eq hd₂ hback₂] at heq
  have hdirectory : d₁.SamePlace d₂ := by
    by_contra hother
    exact hdigest hother heq
  refine ⟨hdirectory, ?_, hshare⟩
  rintro rfl
  apply hdiffer
  rw [Path.SamePlace, hcomponents₁, hcomponents₂, hdirectory]

/-- A cache with the features that are always tracked. -/
def Sample.cache : ObjectCache :=
  ⟨⟨"build/objs"⟩, .default⟩

/-- No flags in a native build. -/
def Sample.plain : FlagSet :=
  .new "native" "gcc"

/-- Different sources can share an object: `a.c` and `a` in one directory, and two files of one name in
directories whose own texts have different digests. -/
theorem sample_sources_share :
    (Path.fileName? ⟨"src/a.c"⟩ = some "a.c" ∧ Path.fileName? ⟨"src/a"⟩ = some "a" ∧
      Path.parent? ⟨"src/a.c"⟩ = some ⟨"src"⟩ ∧ Path.parent? ⟨"src/a"⟩ = some ⟨"src"⟩ ∧
      ¬ Path.SamePlace ⟨"src/a.c"⟩ ⟨"src/a"⟩ ∧
      (Sample.cache.objectPath ⟨"src/a.c"⟩ Sample.plain).SamePlace
        (Sample.cache.objectPath ⟨"src/a"⟩ Sample.plain)) ∧
    (Path.fileName? ⟨"x\\y/a.c"⟩ = some "a.c" ∧ Path.fileName? ⟨"x/y/a.c"⟩ = some "a.c" ∧
      Path.parent? ⟨"x\\y/a.c"⟩ = some ⟨"x\\y"⟩ ∧ Path.parent? ⟨"x/y/a.c"⟩ = some ⟨"x/y"⟩ ∧
      lowBits 32 (Sample.cache.deriver.digest "x\\y") ≠
        lowBits 32 (Sample.cache.deriver.digest "x/y") ∧
      ¬ Path.SamePlace ⟨"x\\y/a.c"⟩ ⟨"x/y/a.c"⟩ ∧
      (Sample.cache.objectPath ⟨"x\\y/a.c"⟩ Sample.plain).SamePlace
        (Sample.cache.objectPath ⟨"x/y/a.c"⟩ Sample.plain)) := by
  have hdirectory : directoryText ⟨"src/a.c"⟩ = directoryText ⟨"src/a"⟩ := by decide +kernel
  have hstem : stem ⟨"src/a.c"⟩ = stem ⟨"src/a"⟩ := by decide
  have hdirectory' : directoryText ⟨"x\\y/a.c"⟩ = directoryText ⟨"x/y/a.c"⟩ := by decide +kernel
  have hstem' : stem ⟨"x\\y/a.c"⟩ = stem ⟨"x/y/a.c"⟩ := by decide
  have hdigest : lowBits 32 (Sample.cache.deriver.digest "x\\y") ≠
      lowBits 32 (Sample.cache.deriver.digest "x/y") := by decide +kernel
  simp only [samePlace_objectPath_of_sources_iff, hdirectory, hstem, hdirectory', hstem', hdigest,
    ne_eq, not_false_eq_true, and_self, and_true, true_and]
  decide

/-- A file and its namesake in another directory have objects of their own. -/
theorem sample_sources_apart :
    ¬ (Sample.cache.objectPath ⟨"src/a.c"⟩ Sample.plain).SamePlace
        (Sample.cache.objectPath ⟨"lib/a"⟩ Sample.plain) ∧
      (Sample.cache.objectPath ⟨"src//a.c"⟩ Sample.plain).SamePlace
        (Sample.cache.objectPath ⟨"src//a"⟩ Sample.plain) := by
  constructor
  · obtain ⟨-, d₁, d₂, hd₁, hd₂, h⟩ := samePlace_objectPath_sources Sample.cache Sample.plain
      ⟨"src/a.c"⟩ ⟨"lib/a"⟩ "a.c" "a" (by decide) (by decide)
    obtain rfl : ⟨"src"⟩ = d₁ := Option.some.inj hd₁
    obtain rfl : ⟨"lib"⟩ = d₂ := Option.some.inj hd₂
    intro hsame
    have hdigest : lowBits 32 (Sample.cache.deriver.digest "src") ≠
        lowBits 32 (Sample.cache.deriver.digest "lib") := by decide +kernel
    have hdirectory := (h (by decide) (by decide) (by decide) (fun _ => hdigest) hsame).1
    exact absurd hdirectory (by decide)
  · obtain ⟨hlaw, -⟩ := samePlace_objectPath_sources Sample.cache Sample.plain
      ⟨"src//a.c"⟩ ⟨"src//a"⟩ "a.c" "a" (by decide) (by decide)
    exact hlaw.2 ⟨rfl, by decide⟩

end ObjectCache

end VariantBuild

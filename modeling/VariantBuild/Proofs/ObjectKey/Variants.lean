import VariantBuild.Config.Files
import VariantBuild.Proofs.ObjectKey.Placement
import VariantBuild.Proofs.Selection.Restarts
import VariantBuild.Proofs.Variant.Flags
import VariantBuild.Variant.Inheritance
/-!
# Objects of different variants

All variants share one flat directory of objects, and what keeps them apart there is the variant's name.
Inheritance and settings leave the name that was asked for, the flags of a build carry it, and no restart
changes it (`Selector.variantName_of_resolve`). A name is never empty in a table that was validated, so
the build type never stands in for it (`Variant.ne_empty_of_resolve`).
-/

namespace VariantBuild

namespace VariantTable

/-- A validated table has no empty name. -/
theorem ne_empty_of_validate {t : VariantTable} (h : t.validate = .ok ()) :
    ∀ name ∈ t.names, name ≠ "" := by
  induction t with
  | nil => simp [names]
  | cons entry rest ih =>
    obtain ⟨name, s⟩ := entry
    rw [validate] at h
    split at h
    next => cases h
    next hname =>
      split at h
      next => cases h
      next =>
        intro other hother
        rcases List.mem_cons.1 hother with rfl | hrest
        · simpa using hname
        · exact ih h other hrest

end VariantTable

namespace Variant

variable {t : VariantTable} {v : Variant} {name : String} {seen : List String}

theorem name_of_builtin? (h : builtin? name = some v) : v.name = name := by
  simp only [builtin?] at h
  repeat' split at h
  all_goals cases h <;> rfl

/-- A resolved variant has the name that was asked for, whatever it inherits. -/
theorem name_of_resolveFrom (h : resolveFrom t seen name = .ok v) : v.name = name := by
  rw [resolveFrom] at h
  split at h
  next => cases h
  next =>
    split at h
    next =>
      split at h
      next builtin hbuiltin =>
        cases h
        exact name_of_builtin? hbuiltin
      next => cases h
    next s _ =>
      split at h
      next parent _ =>
        split at h
        next => cases h
        next base _ =>
          cases h
          rfl
      next =>
        cases h
        change ((builtin? name).getD (plain name)).name = name
        cases hbuiltin : builtin? name with
        | none => rfl
        | some builtin => exact name_of_builtin? hbuiltin

/-- Nothing resolves under the empty name. -/
theorem ne_empty_of_resolve (ht : t.validate = .ok ()) (h : resolve t name = .ok v) : name ≠ "" := by
  rintro rfl
  rw [resolve, resolveFrom] at h
  split at h
  next => cases h
  next =>
    split at h
    next =>
      -- no variant without a name is built in
      have hbuiltin : builtin? "" = none := by decide
      rw [hbuiltin] at h
      cases h
    next s hget =>
      exact VariantTable.ne_empty_of_validate ht "" (VariantTable.mem_names_of_get? hget) rfl

end Variant

namespace Selector

/-- The settled flags carry the variant's name of those that resolution started from. -/
theorem variantName_of_resolve {s : Selector} {d : Disk} {sets : List ManifestSet} {f : FlagSet}
    {r : Resolution} (h : s.resolve d sets f = .ok r) : r.flags.variantName = f.variantName := by
  obtain ⟨added, -, -, hflags, -⟩ := resolve_eq_ok_iff.1 h
  rw [hflags]
  rfl

end Selector

theorem ProjectSettings.validate_variants {p : ProjectSettings} (h : p.validate = .ok ()) :
    p.variants.validate = .ok () := by
  rw [validate] at h
  split at h
  next => cases h
  next => exact h

namespace Variant

/-- From the name that is asked for to the settled flags: the name is still the same. -/
theorem variant_of_resolve {t : VariantTable} {v : Variant} {name : String}
    {cc fincc : Option String} {o : BuildOptions} {pkg : PackageFlags} {s : Selector} {d : Disk}
    {sets : List ManifestSet} {r : Resolution} (ht : t.validate = .ok ())
    (hv : resolve t name = .ok v)
    (hr : s.resolve d sets ((v.applyToolchain cc fincc).initialFlags o pkg) = .ok r) :
    r.flags.variant = name := by
  have hname : r.flags.variantName = name := calc
    r.flags.variantName = ((v.applyToolchain cc fincc).initialFlags o pkg).variantName :=
      Selector.variantName_of_resolve hr
    _ = (v.applyToolchain cc fincc).name := (settings_initialFlags _ o pkg).1
    _ = v.name := rfl
    _ = name := name_of_resolveFrom hv
  rw [FlagSet.variant, hname, if_neg (by simpa using ne_empty_of_resolve ht hv)]

/-- Variants never share objects: under any options, packages, tools, manifests and disks, the settled
flags of two variants whose names have different digests put all their objects in different places. -/
theorem objectPath_apart (digest : String → UInt64) (tracked : List String) (c : ObjectCache)
    (hc : (KeyDeriver.standard digest).withTracked tracked = .ok c.deriver)
    (p : ProjectSettings) (hp : p.validate = .ok ()) (n₁ n₂ : String) (v₁ v₂ : Variant)
    (hv₁ : resolve p.variants n₁ = .ok v₁) (hv₂ : resolve p.variants n₂ = .ok v₂)
    (cc₁ fincc₁ cc₂ fincc₂ : Option String) (o₁ o₂ : BuildOptions) (pkg₁ pkg₂ : PackageFlags)
    (root₁ root₂ : Path) (d₁ d₂ : Disk) (sets₁ sets₂ : List ManifestSet) (r₁ r₂ : Resolution)
    (hr₁ : Selector.resolve ⟨root₁, c⟩ d₁ sets₁
      ((v₁.applyToolchain cc₁ fincc₁).initialFlags o₁ pkg₁) = .ok r₁)
    (hr₂ : Selector.resolve ⟨root₂, c⟩ d₂ sets₂
      ((v₂.applyToolchain cc₂ fincc₂).initialFlags o₂ pkg₂) = .ok r₂)
    (hdigest : KeyDeriver.lowBits 31 (digest n₁) ≠ KeyDeriver.lowBits 31 (digest n₂)) (s₁ s₂ : Path) :
    ¬ (c.objectPath s₁ r₁.flags).SamePlace (c.objectPath s₂ r₂.flags) := by
  have ht := p.validate_variants hp
  obtain ⟨hlimit, hderiver⟩ := KeyDeriver.withTracked_eq_ok_iff.1 hc
  intro hsame
  rw [ObjectCache.samePlace_objectPath_iff, hderiver,
    KeyDeriver.fileName_derive_eq_iff hlimit] at hsame
  -- the last field of the flag ids is the digest of the variants' names
  have hfield := hsame.2.2.2.2
  rw [variant_of_resolve ht hv₁ hr₁, variant_of_resolve ht hv₂ hr₂] at hfield
  exact hdigest hfield

namespace Sample

/-- A variant that takes everything from `libcpu`, the build type included. -/
def settings : ProjectSettings :=
  ⟨none, none, none, [("libcpu-fast",
    ⟨some "libcpu", some "libcpu", none, none, none, none, none, none, none⟩)]⟩

/-- The variant of either name. -/
def variant (name : String) : Variant :=
  ⟨name, "libcpu", "gcc", "gcc", ["-fPIC", "-shared", "-DLIBCPU"], [], [], [0, 2], none⟩

/-- A selector that tracks one more flag. -/
def selector : Selector :=
  ⟨⟨"."⟩, ⟨⟨"build/objs"⟩, ⟨Digest.Sha256.leadingWord, Feature.defaults ++ [.flag "-DFAST"]⟩⟩⟩

/-- A disk without files. -/
def disk : Disk :=
  ⟨[([], .directory 0)], [], 0⟩

/-- One file, which requires a width. -/
def sets : List ManifestSet :=
  [⟨"core", none, none, [(⟨"src/cpu.c"⟩, ⟨[], [.use FlagSet.width32], [], []⟩)]⟩]

/-- The flags that the variant of either name starts from, with another compiler. -/
def initialFlags (name : String) : FlagSet :=
  ((variant name).applyToolchain (some "clang") none).initialFlags .default .none

/-- What the variant of either name settles with, after a restart. -/
def resolution (name object : String) : Resolution :=
  ⟨⟨["-Wall", "-Wextra", "-Werror", "-g3", "-std=c99", "-fPIC", "-shared", "-DLIBCPU",
      "-DLIBCPU_BUILD", "-O0", "-m32"], name, "libcpu", "clang"⟩,
    ⟨[⟨"src/cpu.c"⟩],
      [⟨⟨"src/cpu.c"⟩, [], [], ⟨"build/objs/" ++ object⟩, [], .missingObject⟩]⟩, 1⟩

end Sample

/-- Two variants with one build type and the same flags, and one source. -/
theorem sample_objectPath_apart :
    resolve Sample.settings.variants "libcpu" = .ok (Sample.variant "libcpu") ∧
      resolve Sample.settings.variants "libcpu-fast" = .ok (Sample.variant "libcpu-fast") ∧
      Sample.selector.resolve Sample.disk Sample.sets (Sample.initialFlags "libcpu") =
        .ok (Sample.resolution "libcpu" "rofvna-cpu-2ulpyv4oqehhf.o") ∧
      Sample.selector.resolve Sample.disk Sample.sets (Sample.initialFlags "libcpu-fast") =
        .ok (Sample.resolution "libcpu-fast" "rofvna-cpu-3n5em2ikv9zb7.o") ∧
      ¬ (Sample.selector.cache.objectPath ⟨"src/cpu.c"⟩
          (Sample.resolution "libcpu" "rofvna-cpu-2ulpyv4oqehhf.o").flags).SamePlace
        (Sample.selector.cache.objectPath ⟨"src/cpu.c"⟩
          (Sample.resolution "libcpu-fast" "rofvna-cpu-3n5em2ikv9zb7.o").flags) := by
  have hc : (KeyDeriver.standard Digest.Sha256.leadingWord).withTracked ["-DFAST"] =
      .ok Sample.selector.cache.deriver := rfl
  have hp : Sample.settings.validate = .ok () := by decide
  have hv₁ : resolve Sample.settings.variants "libcpu" = .ok (Sample.variant "libcpu") := by
    decide +kernel
  have hv₂ : resolve Sample.settings.variants "libcpu-fast" =
      .ok (Sample.variant "libcpu-fast") := by
    decide +kernel
  have hr₁ : Sample.selector.resolve Sample.disk Sample.sets (Sample.initialFlags "libcpu") =
      .ok (Sample.resolution "libcpu" "rofvna-cpu-2ulpyv4oqehhf.o") := by decide +kernel
  have hr₂ : Sample.selector.resolve Sample.disk Sample.sets (Sample.initialFlags "libcpu-fast") =
      .ok (Sample.resolution "libcpu-fast" "rofvna-cpu-3n5em2ikv9zb7.o") := by decide +kernel
  have hdigest : KeyDeriver.lowBits 31 (Digest.Sha256.leadingWord "libcpu") ≠
      KeyDeriver.lowBits 31 (Digest.Sha256.leadingWord "libcpu-fast") := by decide +kernel
  exact ⟨hv₁, hv₂, hr₁, hr₂, objectPath_apart _ _ _ hc _ hp _ _ _ _ hv₁ hv₂ _ _ _ _ _ _ _ _ _ _ _ _
    _ _ _ _ hr₁ hr₂ hdigest _ _⟩

end Variant

end VariantBuild

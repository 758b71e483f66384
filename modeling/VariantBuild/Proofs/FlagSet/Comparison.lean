import VariantBuild.ObjectCache
import VariantBuild.Proofs.FlagSet.Pruning
/-!
# Comparing flag sets

Selection asks a flag set two things only: which tokens are active, and what its settings are. Order
and repetition of tokens matter to no question, so flag sets that are `Alike` in this sense give every
source the same object. `Within` compares one way only; it is what resolution climbs.
-/

namespace VariantBuild

namespace FlagSet

/-- The same settings and the same active tokens, in any order and number. -/
structure Alike (f g : FlagSet) : Prop where
  mem_iff : ∀ t, t ∈ f.tokens ↔ t ∈ g.tokens
  variantName : f.variantName = g.variantName
  buildType : f.buildType = g.buildType
  compiler : f.compiler = g.compiler

/-- The same settings, and all tokens of the first are active in the second. -/
structure Within (f g : FlagSet) : Prop where
  subset : f.tokens ⊆ g.tokens
  variantName : f.variantName = g.variantName
  buildType : f.buildType = g.buildType
  compiler : f.compiler = g.compiler

variable {f g h : FlagSet} {t : String}

theorem Alike.has_eq (a : Alike f g) (t : String) : f.has t = g.has t := by
  rw [Bool.eq_iff_iff, has_eq_true_iff, has_eq_true_iff]
  exact a.mem_iff t

theorem Alike.variant_eq (a : Alike f g) : f.variant = g.variant := by
  simp only [variant, a.variantName, a.buildType]

/-- The same flag added to pruned flags leaves them alike after the next prune. -/
theorem Alike.push_pruneWidths (a : Alike f.pruneWidths g.pruneWidths) (t : String) :
    Alike (f.pruneWidths.push t).pruneWidths (g.pruneWidths.push t).pruneWidths where
  mem_iff u := by rw [mem_pruneWidths_push_iff, mem_pruneWidths_push_iff, a.mem_iff u]
  variantName := a.variantName
  buildType := a.buildType
  compiler := a.compiler

theorem Within.antisymm (a : Within f g) (b : Within g f) : Alike f g where
  mem_iff _ := ⟨fun h => a.subset h, fun h => b.subset h⟩
  variantName := a.variantName
  buildType := a.buildType
  compiler := a.compiler

/-- One more flag stays within what has it already. -/
theorem Within.push_pruneWidths (a : Within f.pruneWidths g) (ht : t ∈ g.tokens) :
    Within (f.pruneWidths.push t).pruneWidths g where
  subset u hu := by
    rcases mem_pruneWidths_push_iff.1 hu with rfl | ⟨hu, -⟩
    · exact ht
    · exact a.subset hu
  variantName := a.variantName
  buildType := a.buildType
  compiler := a.compiler

end FlagSet

/-! ## Object names -/

variable {f g : FlagSet}

theorem Feature.isActive_congr (a : f.Alike g) (x : Feature) : x.isActive f = x.isActive g := by
  cases x with
  | flag token => exact a.has_eq token
  | compiler name => simp only [isActive, a.compiler]

theorem KeyDeriver.flagId_congr (k : KeyDeriver) (a : f.Alike g) : k.flagId f = k.flagId g := by
  have hbits : k.features.map (·.isActive f) = k.features.map (·.isActive g) :=
    List.map_congr_left fun x _ => Feature.isActive_congr a x
  simp only [flagId, featureBits, variantBits, hbits, a.variant_eq, a.has_eq]

/-- Order and repetition of tokens do not move an object. -/
theorem ObjectCache.objectPath_congr (c : ObjectCache) (a : f.Alike g) (source : Path) :
    c.objectPath source f = c.objectPath source g := by
  simp only [objectPath, KeyDeriver.derive, c.deriver.flagId_congr a]

end VariantBuild

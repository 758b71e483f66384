/-!
# Cutting text at separators

`pieces` cuts a character list at every separator and keeps the empty pieces between neighbouring
separators, so nothing but the separators is lost. Paths, directive groups and words are all cut
with it; each of them then decides which empty pieces matter.
-/

namespace VariantBuild.Text

/-- The stretches between separators, empty ones included: `n` separators give `n + 1` pieces. -/
def pieces (isSeparator : Char → Bool) : List Char → List (List Char)
  | [] => [[]]
  | c :: cs =>
    if isSeparator c then [] :: pieces isSeparator cs
    else (pieces isSeparator cs).modifyHead (c :: ·)

theorem pieces_ne_nil (isSeparator : Char → Bool) (cs : List Char) :
    pieces isSeparator cs ≠ [] := by
  induction cs with
  | nil => simp [pieces]
  | cons c cs ih => by_cases h : isSeparator c <;> simp [pieces, h, ih]

/-- Nothing but the separators is lost: with them put back, the pieces are the text. -/
theorem intercalate_pieces (sep : Char) (cs : List Char) :
    [sep].intercalate (pieces (· == sep) cs) = cs := by
  induction cs with
  | nil => rfl
  | cons c cs ih =>
    cases hp : pieces (· == sep) cs with
    | nil => exact absurd hp (pieces_ne_nil _ cs)
    | cons p ps =>
      rw [hp] at ih
      by_cases h : c = sep
      · have hc : pieces (· == sep) (c :: cs) = [] :: p :: ps := by simp [pieces, h, hp]
        rw [hc, List.intercalate_cons_cons, ih, h]
        rfl
      · have hc : pieces (· == sep) (c :: cs) = (c :: p) :: ps := by simp [pieces, h, hp]
        rw [hc]
        cases ps with
        | nil => simpa using ih
        | cons q qs => simpa [List.intercalate_cons_cons] using ih

/-- No piece holds a separator. -/
theorem not_isSeparator_of_mem_pieces {isSeparator : Char → Bool} {cs p : List Char} {c : Char}
    (hp : p ∈ pieces isSeparator cs) (hc : c ∈ p) : isSeparator c = false := by
  induction cs generalizing p with
  | nil => simp_all [pieces]
  | cons d ds ih =>
    by_cases h : isSeparator d
    · simp only [pieces, h, if_true, List.mem_cons] at hp
      rcases hp with rfl | hp
      · simp at hc
      · exact ih hp hc
    · simp only [pieces, h] at hp
      cases hq : pieces isSeparator ds with
      | nil => exact absurd hq (pieces_ne_nil isSeparator ds)
      | cons q qs =>
        simp only [hq] at hp ih
        simp at hp
        rcases hp with rfl | hp
        · rcases List.mem_cons.1 hc with rfl | hc
          · simpa using h
          · exact ih (by simp) hc
        · exact ih (by simp [hp]) hc

/-- Text without a separator is one piece. -/
theorem pieces_eq_singleton {isSeparator : Char → Bool} {cs : List Char}
    (h : ∀ c ∈ cs, isSeparator c = false) : pieces isSeparator cs = [cs] := by
  induction cs with
  | nil => rfl
  | cons c cs ih =>
    have hc := h c List.mem_cons_self
    have hcs := ih fun d hd => h d (List.mem_cons_of_mem c hd)
    simp [pieces, hc, hcs]

/-- A separator parts the pieces in front of it from those behind it. -/
theorem pieces_append_cons {isSeparator : Char → Bool} {c : Char} (h : isSeparator c = true)
    (cs ds : List Char) :
    pieces isSeparator (cs ++ c :: ds) = pieces isSeparator cs ++ pieces isSeparator ds := by
  induction cs with
  | nil => simp [pieces, h]
  | cons d cs ih =>
    by_cases hd : isSeparator d
    · simp [pieces, hd, ih]
    · cases hp : pieces isSeparator cs with
      | nil => exact absurd hp (pieces_ne_nil isSeparator cs)
      | cons p ps => simp [pieces, hd, ih, hp]

/-- Pieces without a separator are what their joined text is cut into. -/
theorem pieces_intercalate {sep : Char} {ps : List (List Char)} (hne : ps ≠ [])
    (h : ∀ p ∈ ps, sep ∉ p) : pieces (· == sep) ([sep].intercalate ps) = ps := by
  have hone : ∀ p ∈ ps, pieces (· == sep) p = [p] := by
    intro p hp
    refine pieces_eq_singleton fun c hc => ?_
    simpa using fun heq : c = sep => h p hp (heq ▸ hc)
  induction ps with
  | nil => exact absurd rfl hne
  | cons p ps ih =>
    cases ps with
    | nil => simpa using hone p
    | cons q qs =>
      have hrest := ih (by simp) (fun r hr => h r (List.mem_cons_of_mem p hr))
        fun r hr => hone r (List.mem_cons_of_mem p hr)
      rw [List.intercalate_cons_cons, List.append_assoc, List.singleton_append,
        pieces_append_cons (by simp), hone p List.mem_cons_self, hrest]
      rfl

/-- The pieces of a string. -/
def split (isSeparator : Char → Bool) (text : String) : List String :=
  (pieces isSeparator text.toList).map String.ofList

/-- The text before and after the first occurrence of `mark`, if there is one. -/
def splitFirst (mark : Char) (text : String) : Option (String × String) :=
  let cs := text.toList
  match cs.dropWhile (· != mark) with
  | [] => none
  | _ :: rest => some (String.ofList (cs.takeWhile (· != mark)), String.ofList rest)

/-- `text` without a trailing `tail`, if it ends with it. -/
def beforeSuffix (tail text : String) : Option String :=
  if tail.toList.isSuffixOf text.toList then
    some (String.ofList (text.toList.take (text.length - tail.length)))
  else none

/-- What stands before a tail is found in exactly the texts that end with it. -/
theorem beforeSuffix_eq_some_iff {tail text head : String} :
    beforeSuffix tail text = some head ↔ text = head ++ tail := by
  rw [beforeSuffix, ← String.toList_inj, String.toList_append]
  constructor
  · intro h
    split at h
    next hsuffix =>
      obtain ⟨cs, hcs⟩ := List.isSuffixOf_iff_suffix.1 hsuffix
      have hhead : String.ofList (text.toList.take (text.length - tail.length)) = head :=
        Option.some.inj h
      have hlen := congrArg List.length hcs
      simp only [List.length_append, String.length_toList] at hlen
      have hcut : text.length - tail.length = cs.length := by omega
      rw [← hhead, hcut, ← hcs, List.take_left, String.toList_ofList]
    next => cases h
  · intro h
    have hsuffix : tail.toList.isSuffixOf text.toList = true :=
      List.isSuffixOf_iff_suffix.2 ⟨head.toList, h.symm⟩
    have hlen := congrArg List.length h
    simp only [List.length_append, String.length_toList] at hlen
    have hcut : text.length - tail.length = head.toList.length := by
      rw [String.length_toList]
      omega
    rw [if_pos hsuffix, hcut, h, List.take_left, String.ofList_toList]

end VariantBuild.Text

import Mathlib.Data.List.Forall2
import Mathlib.Tactic.IntervalCases
import VariantBuild.Proofs.Json.Numbers
/-!
# Writing JSON and reading it back

`Prints item text x` says of a text that `item` reads it as `x`, whatever closed text follows. Everything
that the indented layout writes is of that kind: strings because an escape stands for its character
(`readChars_escape`), containers because their items are (`readItems_lines`), and so by induction on the
depth all values that are `Within` it (`prints_indentedChars`).

The other way round, what is read is always within the depth that the reader allows
(`within_of_readValue`). So only binary64 numbers can be changed by writing and reading.
-/

namespace VariantBuild.Json

open Numeral (isDigit)

/-! ## Well-formed values -/

/-- Values with containers nested at most `depth` deep, integers of 64 bits, and distinct names. -/
def Within : Nat → Json → Prop
  | _, .integer n => leastInteger ≤ n ∧ n < integerBound
  | depth + 1, .array items => ∀ j ∈ items, Within depth j
  | depth + 1, .object members => (members.map (·.1)).Nodup ∧ ∀ m ∈ members, Within depth m.2
  | 0, .array _ | 0, .object _ => False
  | _, _ => True

@[simp] theorem within_integer {depth : Nat} {n : Int} :
    Within depth (.integer n) ↔ leastInteger ≤ n ∧ n < integerBound := by
  cases depth <;> rfl

/-- The binary64 numbers in a value. -/
inductive Occurs (x : Binary64) : Json → Prop where
  | double : Occurs x (.double x)
  | item {items : List Json} {j : Json} : j ∈ items → Occurs x j → Occurs x (.array items)
  | member {members : Members} {m : String × Json} :
      m ∈ members → Occurs x m.2 → Occurs x (.object members)

theorem occurs_object_iff {x : Binary64} {members : Members} :
    Occurs x (.object members) ↔ ∃ m ∈ members, Occurs x m.2 := by
  constructor
  · rintro (_ | _ | ⟨hm, hx⟩)
    exact ⟨_, hm, hx⟩
  · rintro ⟨m, hm, hx⟩
    exact .member hm hx

/-- Writing and reading changes no number in the value. -/
def ReadsBack (j : Json) : Prop :=
  ∀ x, Occurs x j → x.ReadsBack

/-! ## Blanks -/

/-- A value starts with a character that is neither blank nor the end of a container. -/
def Starts (text : List Char) : Prop :=
  ∃ c cs, text = c :: cs ∧ isSpace c = false ∧ c ≠ ']' ∧ c ≠ '\x7d'

theorem skipSpace_of_starts {text : List Char} (h : Starts text) (rest : List Char) :
    skipSpace (text ++ rest) = text ++ rest := by
  obtain ⟨c, cs, rfl, hc, -⟩ := h
  simp [skipSpace, hc]

@[simp] theorem skipSpace_lineStart (level : Nat) (rest : List Char) :
    skipSpace (lineStart level ++ rest) = skipSpace rest := by
  have hall : ∀ c ∈ lineStart level, isSpace c = true := by
    intro c hc
    rcases List.mem_cons.1 hc with rfl | hc
    · rfl
    · rw [List.eq_of_mem_replicate hc]
      rfl
  exact List.dropWhile_append_of_pos hall

/-! ## Strings -/

/-- A character stands for itself, or an escape that is read as it. -/
theorem escape_cases (c : Char) : (escape c = [c] ∧ c ≠ '"' ∧ c ≠ '\\' ∧ ¬c.toNat < 0x20) ∨
    ∃ e, escape c = '\\' :: e ∧ ∀ rest, readEscape (e ++ rest) = some (c, rest) := by
  by_cases hquote : c = '"'
  · exact .inr ⟨['"'], by simp [escape, hquote], fun rest => by simp [readEscape, hquote]⟩
  by_cases hslash : c = '\\'
  · exact .inr ⟨['\\'], by simp [escape, hslash], fun rest => by simp [readEscape, hslash]⟩
  by_cases hlow : c.toNat < 0x20
  · -- there are thirty-two control characters
    obtain ⟨n, hn, rfl⟩ : ∃ n < 32, Char.ofNat n = c := ⟨c.toNat, hlow, Char.ofNat_toNat c⟩
    right
    interval_cases n <;> exact ⟨_, rfl, fun rest => rfl⟩
  · refine .inl ⟨?_, hquote, hslash, hlow⟩
    have hne : ∀ d : Char, d.toNat < 0x20 → c ≠ d := fun d hd hcd => hlow (hcd ▸ hd)
    have h8 : c.toNat ≠ 8 := by omega
    have h12 : c.toNat ≠ 12 := by omega
    simp [escape, hquote, hslash, hlow, h8, h12, hne '\n' (by decide), hne '\r' (by decide),
      hne '\t' (by decide)]

/-- An escape is read as its character. -/
theorem readChars_escape (fuel : Nat) (c : Char) (rest : List Char) :
    readChars (fuel + 1) (escape c ++ rest) = (readChars fuel rest).map fun r => (c :: r.1, r.2) := by
  rcases escape_cases c with ⟨hescape, hquote, hslash, hlow⟩ | ⟨e, hescape, hread⟩
  · rw [hescape, List.singleton_append, readChars, if_neg hquote, if_neg hslash, if_neg hlow]
    cases readChars fuel rest <;> rfl
  · rw [hescape, List.cons_append, readChars, if_neg (by decide), if_pos rfl, hread]
    simp only [Option.bind_eq_bind, Option.bind_some]
    cases readChars fuel rest <;> rfl

theorem readChars_flatMap_escape {fuel : Nat} {cs rest : List Char} (h : cs.length < fuel) :
    readChars fuel (cs.flatMap escape ++ '"' :: rest) = some (cs, rest) := by
  induction cs generalizing fuel with
  | nil =>
    obtain ⟨fuel, rfl⟩ := Nat.exists_eq_add_of_lt h
    rw [Nat.add_assoc]
    rfl
  | cons c cs ih =>
    cases fuel with
    | zero => cases h
    | succ fuel =>
      rw [List.flatMap_cons, List.append_assoc, readChars_escape, ih (Nat.lt_of_succ_lt_succ h)]
      rfl

theorem length_le_length_flatMap_escape (cs : List Char) : cs.length ≤ (cs.flatMap escape).length := by
  induction cs with
  | nil => exact Nat.le_refl _
  | cons c cs ih =>
    have hpos : 0 < (escape c).length := by
      rcases escape_cases c with ⟨hescape, -⟩ | ⟨e, hescape, -⟩ <;> simp [hescape]
    rw [List.flatMap_cons, List.length_append, List.length_cons]
    omega

/-- A string is read from its quoted form. -/
theorem readString_quote (s : String) (rest : List Char) :
    ∃ tail, quote s ++ rest = '"' :: tail ∧ readString tail = some (s, rest) := by
  refine ⟨s.toList.flatMap escape ++ '"' :: rest, by simp [quote], ?_⟩
  have hlen := length_le_length_flatMap_escape s.toList
  rw [readString, readChars_flatMap_escape]
  · simp
  · simp only [List.length_append]
    omega

/-! ## Containers -/

/-- A text that is read as `x`, whatever closed text follows. -/
def Prints {α : Type} (item : Reader α) (text : List Char) (x : α) : Prop :=
  Starts text ∧ ∀ rest, Closed rest → item (text ++ rest) = some (x, rest)

/-- The items after the first, each on a line of its own, and the end of the container. -/
def itemLines (level : Nat) (close : Char) : List (List Char) → List Char
  | [] => lineStart level ++ [close]
  | text :: texts => ',' :: lineStart (level + 1) ++ text ++ itemLines level close texts

theorem indentedItems_eq (level : Nat) (items : List Json) : indentedItems level items =
    itemLines level ']' (items.map (indentedChars (level + 1))) := by
  induction items with
  | nil => rfl
  | cons j items ih => rw [indentedItems, ih, List.map_cons, itemLines]

/-- A member as it is written. -/
def memberText (level : Nat) (m : String × Json) : List Char :=
  quote m.1 ++ ':' :: ' ' :: indentedChars level m.2

theorem indentedMembers_eq (level : Nat) (members : Members) : indentedMembers level members =
    itemLines level '\x7d' (members.map (memberText (level + 1))) := by
  induction members with
  | nil => rfl
  | cons m members ih =>
    rw [indentedMembers, ih, List.map_cons, itemLines, memberText]
    simp

theorem closed_itemLines (level : Nat) (close : Char) (texts : List (List Char)) (rest : List Char) :
    Closed (itemLines level close texts ++ rest) := by
  cases texts with
  | nil =>
    rw [itemLines, List.append_assoc]
    exact closed_lineStart level _
  | cons text texts => exact closed_comma _

theorem skipSpace_cons {c : Char} (hc : isSpace c = false) (rest : List Char) :
    skipSpace (c :: rest) = c :: rest := by
  simp [skipSpace, hc]

theorem length_le_length_itemLines (level : Nat) (close : Char) (texts : List (List Char)) :
    texts.length ≤ (itemLines level close texts).length := by
  induction texts with
  | nil => exact Nat.zero_le _
  | cons text texts ih =>
    simp only [itemLines, List.length_cons, List.length_append]
    omega

theorem readItems_lineStart {α : Type} (close : Char) (item : Reader α) (fuel level : Nat)
    (cs : List Char) : readItems close item fuel (lineStart level ++ cs) = readItems close item fuel cs := by
  cases fuel with
  | zero => rfl
  | succ fuel => rw [readItems, readItems, skipSpace_lineStart]

section Containers

variable {α : Type} {item : Reader α} {close : Char} {text : List Char} {x : α} {texts : List (List Char)}
  {xs : List α}

/-- The items of a container are read from their lines. -/
theorem readItems_lines (hclose : close = ']' ∨ close = '\x7d') (hfirst : Prints item text x)
    (hrest : List.Forall₂ (Prints item) texts xs) {fuel : Nat} (hfuel : texts.length < fuel) (level : Nat)
    (rest : List Char) : readItems close item fuel (text ++ (itemLines level close texts ++ rest)) =
      some (x :: xs, rest) := by
  have hblank : isSpace close = false := by rcases hclose with rfl | rfl <;> rfl
  have hcomma : ',' ≠ close := by rcases hclose with rfl | rfl <;> decide
  -- induction on the lines that follow: what closes or separates is what makes the first text end
  induction hrest generalizing text x fuel with
  | nil =>
    obtain ⟨fuel, rfl⟩ := Nat.exists_eq_succ_of_ne_zero (Nat.ne_of_gt hfuel)
    rw [readItems, skipSpace_of_starts hfirst.1, hfirst.2 _ (closed_itemLines level close [] rest)]
    simp [itemLines, skipSpace_cons hblank]
  | cons hnext _ ih =>
    obtain ⟨fuel, rfl⟩ := Nat.exists_eq_succ_of_ne_zero (Nat.ne_of_gt (Nat.zero_lt_of_lt hfuel))
    have htail := ih hnext (Nat.lt_of_succ_lt_succ hfuel)
    rw [readItems, skipSpace_of_starts hfirst.1, hfirst.2 _ (closed_itemLines level close _ rest)]
    simp [itemLines, skipSpace_cons, show isSpace ',' = false from rfl, hcomma, readItems_lineStart, htail]

/-- A container is read from its lines. -/
theorem readContainer_lines (hclose : close = ']' ∨ close = '\x7d') (hfirst : Prints item text x)
    (hrest : List.Forall₂ (Prints item) texts xs) (level : Nat) (rest : List Char) :
    readContainer close item (lineStart (level + 1) ++ (text ++ (itemLines level close texts ++ rest))) =
      some (x :: xs, rest) := by
  obtain ⟨c, cs, rfl, -, hbracket, hbrace⟩ := id hfirst.1
  have hopen : c ≠ close := by rcases hclose with rfl | rfl <;> assumption
  rw [readContainer, skipSpace_lineStart, skipSpace_of_starts hfirst.1]
  refine (if_neg hopen).trans (readItems_lines hclose hfirst hrest ?_ level rest)
  have hlen := length_le_length_itemLines level close texts
  simp only [List.length_append, List.length_cons]
  omega

end Containers

/-! ## Members -/

theorem Members.set_of_notMem {name : String} {ms : Members} (h : name ∉ ms.map (·.1)) (value : Json) :
    ms.set name value = ms ++ [(name, value)] := by
  induction ms with
  | nil => rfl
  | cons m ms ih =>
    simp only [List.map_cons, List.mem_cons, not_or] at h
    rw [Members.set, if_neg (Ne.symm h.1), ih h.2, List.cons_append]

theorem Members.mem_or_eq_of_mem_set {name : String} {value : Json} {ms : Members} {m : String × Json}
    (h : m ∈ ms.set name value) : m ∈ ms ∨ m = (name, value) := by
  induction ms with
  | nil => exact .inr (List.mem_singleton.1 h)
  | cons n ms ih =>
    rw [Members.set] at h
    split at h
    next hname =>
      rcases List.mem_cons.1 h with rfl | h
      · exact .inr (by rw [hname])
      · exact .inl (List.mem_cons_of_mem _ h)
    next =>
      rcases List.mem_cons.1 h with rfl | h
      · exact .inl List.mem_cons_self
      · exact (ih h).imp_left (List.mem_cons_of_mem _)

/-- Sets members in turn. -/
def Members.setAll (acc ms : Members) : Members :=
  ms.foldl (fun acc m => acc.set m.1 m.2) acc

theorem Members.setAll_of_nodup {ms acc : Members} (h : ((acc ++ ms).map (·.1)).Nodup) :
    acc.setAll ms = acc ++ ms := by
  induction ms generalizing acc with
  | nil => simp [setAll]
  | cons m ms ih =>
    have hm : m.1 ∉ acc.map (·.1) := by
      rw [List.map_append, List.map_cons] at h
      exact fun hacc => (List.nodup_append.1 h).2.2 _ hacc _ List.mem_cons_self rfl
    rw [setAll, List.foldl_cons, ← setAll, Members.set_of_notMem hm, ih (by simpa using h)]
    simp

theorem Members.nodup_setAll {acc : Members} (h : (acc.map (·.1)).Nodup) (ms : Members) :
    ((acc.setAll ms).map (·.1)).Nodup := by
  induction ms generalizing acc with
  | nil => exact h
  | cons m ms ih =>
    refine ih ?_
    rw [Members.names_set]
    split
    next => exact h
    next hm =>
      refine List.nodup_append.2 ⟨h, by simp, ?_⟩
      rintro a ha b hb rfl
      exact hm (List.mem_singleton.1 hb ▸ ha)

theorem Members.mem_or_mem_of_mem_setAll {acc ms : Members} {m : String × Json} (h : m ∈ acc.setAll ms) :
    m ∈ acc ∨ m ∈ ms := by
  induction ms generalizing acc with
  | nil => exact .inl h
  | cons n ms ih =>
    rcases ih h with h | h
    · exact (mem_or_eq_of_mem_set h).imp_right fun (heq : m = n) => heq ▸ List.mem_cons_self
    · exact .inr (List.mem_cons_of_mem n h)

/-- Distinct names are collected as they are. -/
theorem collect_of_nodup {ms : Members} (h : (ms.map (·.1)).Nodup) : collect ms = ms :=
  Members.setAll_of_nodup (by simpa using h)

theorem nodup_collect (ms : Members) : ((collect ms).map (·.1)).Nodup :=
  Members.nodup_setAll (by simp) ms

theorem mem_of_mem_collect {ms : Members} {m : String × Json} (h : m ∈ collect ms) : m ∈ ms :=
  (Members.mem_or_mem_of_mem_setAll h).resolve_left List.not_mem_nil

/-! ## Values -/

theorem readValue_quote (depth : Nat) (s : String) (rest : List Char) :
    readValue depth (quote s ++ rest) = some (.string s, rest) := by
  obtain ⟨tail, htail, hread⟩ := readString_quote s rest
  rw [htail]
  cases depth <;> simp [readValue, hread]

theorem readValue_of_readNumber {cs : List Char} {r : Json × List Char} (h : readNumber cs = some r)
    (depth : Nat) : readValue depth cs = some r := by
  obtain ⟨c, rest, rfl, hc⟩ := head_of_readNumber h
  rw [readValue.eq_def]
  split
  all_goals first | exact h | simp_all [isDigit]

theorem prints_string (depth : Nat) (s : String) : Prints (readValue depth) (quote s) (.string s) :=
  ⟨⟨'"', _, rfl, rfl, by decide, by decide⟩, fun rest _ => readValue_quote depth s rest⟩

theorem prints_number {text : List Char} {j : Json} (h : readNumber text = some (j, [])) (depth : Nat) :
    Prints (readValue depth) text j := by
  refine ⟨?_, fun rest hrest => readValue_of_readNumber (readNumber_steady h hrest) depth⟩
  obtain ⟨c, cs, rfl, hc⟩ := head_of_readNumber h
  refine ⟨c, cs, rfl, ?_⟩
  rcases hc with rfl | hc
  · decide
  · have hne : ∀ d, isDigit d = false → c ≠ d := by
      rintro d hd rfl
      rw [hc] at hd
      cases hd
    simp [isSpace, hne ' ' rfl, hne '\t' rfl, hne '\n' rfl, hne '\r' rfl, hne ']' rfl, hne '\x7d' rfl]

/-- A member is read from its text. -/
theorem prints_member {depth level : Nat} {m : String × Json}
    (h : Prints (readValue depth) (indentedChars level m.2) m.2) :
    Prints (readMember (readValue depth)) (memberText level m) m := by
  refine ⟨⟨'"', _, rfl, rfl, by decide, by decide⟩, fun rest hrest => ?_⟩
  obtain ⟨tail, htail, hread⟩ := readString_quote m.1 (':' :: ' ' :: (indentedChars level m.2 ++ rest))
  have hblank : skipSpace (' ' :: (indentedChars level m.2 ++ rest)) = indentedChars level m.2 ++ rest :=
    skipSpace_of_starts h.1 rest
  have htext : memberText level m ++ rest = '"' :: tail := by
    rw [← htail]
    simp [memberText]
  rw [htext, readMember, hread]
  simp [skipSpace_cons, show isSpace ':' = false from rfl, hblank, h.2 rest hrest]

/-- What is written is read back, whatever closed text follows. -/
theorem prints_indentedChars : ∀ {depth : Nat} {j : Json}, Within depth j → ReadsBack j →
    ∀ level, Prints (readValue depth) (indentedChars level j) j
  | depth, .null, _, _, _ =>
    ⟨⟨'n', _, rfl, rfl, by decide, by decide⟩, fun rest _ => by cases depth <;> rfl⟩
  | depth, .boolean true, _, _, _ =>
    ⟨⟨'t', _, rfl, rfl, by decide, by decide⟩, fun rest _ => by cases depth <;> rfl⟩
  | depth, .boolean false, _, _, _ =>
    ⟨⟨'f', _, rfl, rfl, by decide, by decide⟩, fun rest _ => by cases depth <;> rfl⟩
  | depth, .integer n, h, _, _ =>
    prints_number (readNumber_integer (within_integer.1 h).1 (within_integer.1 h).2) depth
  | depth, .double x, _, hback, _ => prints_number (hback x .double) depth
  | depth, .string s, _, _, _ => prints_string depth s
  | depth + 1, .array [], _, _, _ =>
    ⟨⟨'[', _, rfl, rfl, by decide, by decide⟩, fun rest _ => rfl⟩
  | depth + 1, .object [], _, _, _ =>
    ⟨⟨'\x7b', _, rfl, rfl, by decide, by decide⟩, fun rest _ => rfl⟩
  | depth + 1, .array (j :: js), h, hback, level => by
    have hitem : ∀ i ∈ j :: js, Prints (readValue depth) (indentedChars (level + 1) i) i := fun i hi =>
      prints_indentedChars (h i hi) (fun x hx => hback x (.item hi hx)) (level + 1)
    have hrest : List.Forall₂ (Prints (readValue depth)) (js.map (indentedChars (level + 1))) js :=
      List.forall₂_map_left_iff.2 (List.forall₂_same.2 fun i hi => hitem i (List.mem_cons_of_mem j hi))
    refine ⟨⟨'[', _, rfl, rfl, by decide, by decide⟩, fun rest _ => ?_⟩
    have hread := readContainer_lines (.inl rfl) (hitem j List.mem_cons_self) hrest level rest
    simp [indentedChars, indentedItems_eq, readValue, hread]
  | depth + 1, .object (m :: ms), h, hback, level => by
    have hmember : ∀ i ∈ m :: ms,
        Prints (readMember (readValue depth)) (memberText (level + 1) i) i := fun i hi =>
      prints_member (prints_indentedChars (h.2 i hi) (fun x hx => hback x (.member hi hx)) (level + 1))
    have hrest : List.Forall₂ (Prints (readMember (readValue depth)))
        (ms.map (memberText (level + 1))) ms :=
      List.forall₂_map_left_iff.2 (List.forall₂_same.2 fun i hi => hmember i (List.mem_cons_of_mem m hi))
    refine ⟨⟨'\x7b', _, rfl, rfl, by decide, by decide⟩, fun rest _ => ?_⟩
    have hread := readContainer_lines (.inr rfl) (hmember m List.mem_cons_self) hrest level rest
    have hnames : collect (m :: ms) = m :: ms := collect_of_nodup h.1
    simp only [memberText, List.append_assoc, List.cons_append] at hread
    simp [indentedChars, indentedMembers_eq, readValue, hread, hnames]

/-- A text that is written is read as the value it was written from. -/
theorem parse_indented {j : Json} (h : Within nesting j) (hback : ReadsBack j) :
    parse j.indented = some j := by
  obtain ⟨hstarts, hread⟩ := prints_indentedChars h hback 0
  have hskip := skipSpace_of_starts hstarts []
  have hread := hread [] closed_nil
  rw [List.append_nil] at hskip hread
  rw [parse, indented, String.toList_ofList, hskip, hread]
  rfl

/-! ## What is read -/

/-- Every item of a container was read by the reader of its items. -/
theorem exists_of_mem_readItems {α : Type} {close : Char} {item : Reader α} {fuel : Nat}
    {cs tail : List Char} {xs : List α} (h : readItems close item fuel cs = some (xs, tail)) {x : α}
    (hx : x ∈ xs) : ∃ cs' tail', item cs' = some (x, tail') := by
  induction fuel generalizing cs xs with
  | zero => cases h
  | succ fuel ih =>
    obtain ⟨⟨y, rest⟩, hitem, h⟩ := Option.bind_eq_some_iff.1 h
    dsimp only at h
    split at h
    next c rest' _ =>
      split at h
      next =>
        cases h
        rw [List.mem_singleton.1 hx]
        exact ⟨_, _, hitem⟩
      next =>
        split at h
        next =>
          obtain ⟨⟨ys, rest''⟩, hitems, hlast⟩ := Option.bind_eq_some_iff.1 h
          cases hlast
          rcases List.mem_cons.1 hx with rfl | hx
          · exact ⟨_, _, hitem⟩
          · exact ih hitems hx
        next => cases h
    next => cases h

theorem exists_of_mem_readContainer {α : Type} {close : Char} {item : Reader α} {cs tail : List Char}
    {xs : List α} (h : readContainer close item cs = some (xs, tail)) {x : α} (hx : x ∈ xs) :
    ∃ cs' tail', item cs' = some (x, tail') := by
  rw [readContainer] at h
  split at h
  next c rest _ =>
    split at h
    next =>
      cases h
      cases hx
    next => exact exists_of_mem_readItems h hx
  next => cases h

theorem exists_of_readMember {value : Reader Json} {cs tail : List Char} {m : String × Json}
    (h : readMember value cs = some (m, tail)) : ∃ cs' tail', value cs' = some (m.2, tail') := by
  rw [readMember.eq_def] at h
  split at h
  next cs =>
    obtain ⟨⟨name, rest⟩, -, h⟩ := Option.bind_eq_some_iff.1 h
    dsimp only at h
    split at h
    next cs' _ =>
      obtain ⟨⟨v, rest'⟩, hvalue, hlast⟩ := Option.bind_eq_some_iff.1 h
      cases hlast
      exact ⟨_, _, hvalue⟩
    next => cases h
  next => cases h

theorem within_of_value? {n : NumberParts} {j : Json} (h : n.value? = some j) (depth : Nat) :
    Within depth j := by
  have hdouble : ∀ {m? : Option Magnitude}, m?.map (fun m => Json.double ⟨n.negative, m⟩) = some j →
      Within depth j := by
    intro m? h
    obtain ⟨m, -, rfl⟩ := Option.map_eq_some_iff.1 h
    cases depth <;> trivial
  have hlt := takeDigits_lt (s := 0) (by decide) n.whole
  rw [NumberParts.value?] at h
  dsimp only at h
  split at h
  next =>
    split at h
    next =>
      cases h
      exact within_integer.2 ⟨by simp only [leastInteger]; omega, by exact_mod_cast hlt⟩
    next =>
      split at h
      next => exact hdouble h
      next hs =>
        cases h
        refine within_integer.2 ⟨by omega, ?_⟩
        simp only [integerBound]
        omega
  next =>
    split at h
    next => exact hdouble h
    next =>
      split at h
      next =>
        split at h
        next =>
          cases h
          cases depth <;> trivial
        next => cases h
      next => exact hdouble h

theorem within_of_readNumber {cs tail : List Char} {j : Json} (h : readNumber cs = some (j, tail))
    (depth : Nat) : Within depth j := by
  obtain ⟨c, rest, rfl, -⟩ := head_of_readNumber h
  obtain ⟨negative, cs, h⟩ : ∃ negative cs, readUnsigned negative cs = some (j, tail) := by
    by_cases hc : c = '-'
    · subst hc
      exact ⟨true, rest, h⟩
    · exact ⟨false, c :: rest, readNumber_of_ne hc rest ▸ h⟩
  obtain ⟨⟨whole, cs₁⟩, -, h⟩ := Option.bind_eq_some_iff.1 h
  obtain ⟨⟨fraction, cs₂⟩, -, h⟩ := Option.bind_eq_some_iff.1 h
  obtain ⟨⟨exponent, cs₃⟩, -, h⟩ := Option.bind_eq_some_iff.1 h
  obtain ⟨value, hvalue, hlast⟩ := Option.bind_eq_some_iff.1 h
  cases hlast
  exact within_of_value? hvalue depth

/-- What is read is within the depth that the reader allows. -/
theorem within_of_readValue {depth : Nat} {cs tail : List Char} {j : Json}
    (h : readValue depth cs = some (j, tail)) : Within depth j := by
  induction depth using Nat.strongRecOn generalizing cs j tail with
  | _ depth ih =>
    rw [readValue.eq_def] at h
    split at h
    next =>
      obtain ⟨r, -, heq⟩ := Option.map_eq_some_iff.1 h
      cases heq
      cases depth <;> trivial
    next => cases h
    next depth cs =>
      obtain ⟨⟨js, rest⟩, hitems, heq⟩ := Option.map_eq_some_iff.1 h
      cases heq
      intro i hi
      obtain ⟨cs', tail', hread⟩ := exists_of_mem_readContainer hitems hi
      exact ih depth depth.lt_succ_self hread
    next => cases h
    next depth cs =>
      obtain ⟨⟨ms, rest⟩, hmembers, heq⟩ := Option.map_eq_some_iff.1 h
      cases heq
      refine ⟨nodup_collect ms, fun m hm => ?_⟩
      obtain ⟨cs', tail', hread⟩ := exists_of_mem_readContainer hmembers (mem_of_mem_collect hm)
      obtain ⟨cs'', tail'', hvalue⟩ := exists_of_readMember hread
      exact ih depth depth.lt_succ_self hvalue
    next =>
      cases h
      cases depth <;> trivial
    next =>
      cases h
      cases depth <;> trivial
    next =>
      cases h
      cases depth <;> trivial
    next => exact within_of_readNumber h depth

theorem within_of_parse {text : String} {j : Json} (h : parse text = some j) : Within nesting j := by
  obtain ⟨⟨j', rest⟩, hread, hlast⟩ := Option.bind_eq_some_iff.1 h
  dsimp only at hlast
  split at hlast
  next =>
    cases hlast
    exact within_of_readValue hread
  next => cases hlast

end VariantBuild.Json

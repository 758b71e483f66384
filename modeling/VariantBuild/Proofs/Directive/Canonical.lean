import VariantBuild.Directive
/-!
# The canonical text of a directive

A directive text is a keyword and a value, parted by the first equals sign. What a text says can be told from
these two alone: whether it is refused, which texts it shares its meaning with, and what its group admits
(`Directive.canonicalForm`). The directive's own text is canonical: it differs from what was read in the empty
parts of a group and in an equals sign that was left out, and it reads as the same directive.
-/

namespace VariantBuild

/-! ## Reading back -/

theorem GroupPart.toList_text_ofChars (cs : List Char) : (GroupPart.ofChars cs).text.toList = cs := by
  rw [GroupPart.ofChars.eq_def]
  split <;> simp [GroupPart.text]

theorem Group.toList_text_parse (text : String) : (Group.parse text).text.toList =
    ['|'].intercalate ((Text.pieces (· == '|') text.toList).filter (!·.isEmpty)) := by
  have hparts : ∀ ps : List (List Char),
      ((ps.map GroupPart.ofChars).map GroupPart.text).map String.toList = ps := by
    intro ps
    simp [Function.comp_def, GroupPart.toList_text_ofChars]
  rw [Group.text, Group.parse, String.toList_intercalate, hparts]
  rfl

/-- A group that was read is read back from its text. -/
theorem Group.parse_text_parse (text : String) : Group.parse (Group.parse text).text = Group.parse text := by
  rw [Group.parse, toList_text_parse, Group.parse]
  congr 2
  generalize hps : (Text.pieces (· == '|') text.toList).filter (!·.isEmpty) = ps
  have hmem : ∀ p ∈ ps, p ∈ Text.pieces (· == '|') text.toList ∧ (!p.isEmpty) = true := by
    intro p hp
    rw [← hps] at hp
    exact List.mem_filter.1 hp
  cases ps with
  | nil => rfl
  | cons p ps =>
    rw [Text.pieces_intercalate (List.cons_ne_nil p ps), List.filter_eq_self.2 fun q hq => (hmem q hq).2]
    intro q hq hbar
    simpa using Text.not_isSeparator_of_mem_pieces (hmem q hq).1 hbar

namespace Directive

/-- The group of a directive is one that was read from some text. -/
def GroupRead : Directive → Prop
  | flags group | options group => ∃ text, group = Group.parse text
  | use _ | raw _ => True

/-- The text of a directive can be told from all others. -/
def Representable : Directive → Prop
  | use token => token ≠ ""
  | raw argument => argument.toList.head? ≠ some '@'
  | flags _ | options _ => True

theorem splitFirst_append {head : String} (h : '=' ∉ head.toList) (tail : String) :
    Text.splitFirst '=' (head ++ "=" ++ tail) = some (head, tail) := by
  have hne : ∀ c ∈ head.toList, (c != '=') = true := by
    intro c hc
    simpa using fun heq : c = '=' => h (heq ▸ hc)
  have htext : (head ++ "=" ++ tail).toList = head.toList ++ '=' :: tail.toList := by simp
  rw [Text.splitFirst, htext, List.dropWhile_append_of_pos hne, List.takeWhile_append_of_pos hne]
  simp

/-- How a text with this keyword is read. -/
theorem parse_keyword {keyword : String} (hat : keyword.toList.head? = some '@')
    (heq : '=' ∉ keyword.toList) (value : String) : parse (keyword ++ "=" ++ value) =
      if keyword = "@flags" then .ok (flags (.parse value))
      else if keyword = "@options" then .ok (options (.parse value))
      else if keyword = "@use" then
        if value.isEmpty then .error (.missingFlag (keyword ++ "=" ++ value)) else .ok (use value)
      else .error (.unknownKeyword (keyword ++ "=" ++ value) keyword) := by
  have hhead : (keyword ++ "=" ++ value).toList.head? = some '@' := by
    simp [List.head?_append, hat]
  rw [parse, if_neg (not_not_intro hhead), splitFirst_append heq]
  rfl

/-- What is read can be read back. -/
theorem representable_of_parse {text : String} {d : Directive} (h : parse text = .ok d) :
    d.GroupRead ∧ d.Representable := by
  rw [parse] at h
  split at h
  next hat =>
    cases h
    exact ⟨trivial, hat⟩
  next =>
    dsimp only at h
    split at h
    next =>
      cases h
      exact ⟨⟨_, rfl⟩, trivial⟩
    next =>
      split at h
      next =>
        cases h
        exact ⟨⟨_, rfl⟩, trivial⟩
      next =>
        split at h
        next =>
          split at h
          next => cases h
          next hvalue =>
            cases h
            exact ⟨trivial, by simpa [Representable] using hvalue⟩
        next => cases h

/-- A directive is read back from its text exactly when it is representable. -/
theorem parse_text_iff {d : Directive} (h : d.GroupRead) : parse d.text = .ok d ↔ d.Representable := by
  refine ⟨fun hparse => (representable_of_parse hparse).2, fun hrep => ?_⟩
  cases d with
  | flags group =>
    obtain ⟨source, rfl⟩ := h
    have htext : "@flags=" = "@flags" ++ "=" := by decide
    rw [text, htext, parse_keyword (by decide) (by decide), if_pos rfl, Group.parse_text_parse]
  | options group =>
    obtain ⟨source, rfl⟩ := h
    have htext : "@options=" = "@options" ++ "=" := by decide
    rw [text, htext, parse_keyword (by decide) (by decide), if_neg (by decide), if_pos rfl,
      Group.parse_text_parse]
  | use token =>
    have htext : "@use=" = "@use" ++ "=" := by decide
    have hvalue : ¬token.isEmpty = true := by simpa [Representable] using hrep
    rw [text, htext, parse_keyword (by decide) (by decide), if_neg (by decide), if_neg (by decide),
      if_pos rfl, if_neg hvalue]
  | raw argument => exact if_pos hrep

end Directive

/-! ## Groups as they are written -/

/-- Whether a part of a group excludes the name behind its exclamation mark. -/
def Excludes (part : String) : Prop :=
  part.toList.head? = some '!'

instance (part : String) : Decidable (Excludes part) :=
  inferInstanceAs (Decidable (part.toList.head? = some '!'))

namespace GroupPart

theorem ofChars_eq_exclude_iff {cs : List Char} {name : String} :
    ofChars cs = exclude name ↔ cs = ("!" ++ name).toList := by
  rw [ofChars.eq_def]
  split
  next rest => simp [← String.toList_inj]
  next hnot =>
    have hne : cs ≠ ("!" ++ name).toList := fun h => hnot name.toList (by simpa using h)
    simp only [reduceCtorEq, hne]

theorem ofChars_eq_allow_iff {cs : List Char} {name : String} :
    ofChars cs = allow name ↔ cs = name.toList ∧ ¬ Excludes name := by
  rw [ofChars.eq_def]
  split
  next rest =>
    constructor
    · intro h
      cases h
    · rintro ⟨h, hnot⟩
      exact absurd (by simp [Excludes, ← h]) hnot
  next hnot =>
    have hhead : cs.head? ≠ some '!' := by
      cases cs with
      | nil => simp
      | cons c rest =>
        intro h
        obtain rfl : c = '!' := by simpa using h
        exact hnot rest rfl
    constructor
    · intro h
      obtain rfl : String.ofList cs = name := by simpa using h
      exact ⟨String.toList_ofList.symm, by simpa [Excludes] using hhead⟩
    · rintro ⟨h, -⟩
      simp [h]

end GroupPart

namespace Group

/-- The parts of a group's text that are not empty. -/
def written (text : String) : List String :=
  (Text.split (· == '|') text).filter (· ≠ "")

theorem mem_written_iff {text part : String} : part ∈ written text ↔
    part.toList ∈ (Text.pieces (· == '|') text.toList).filter (!·.isEmpty) := by
  simp only [written, Text.split, List.mem_filter, List.mem_map]
  constructor
  · rintro ⟨⟨cs, hcs, rfl⟩, hne⟩
    exact ⟨by simpa using hcs, by simpa using hne⟩
  · rintro ⟨hmem, hne⟩
    exact ⟨⟨part.toList, hmem, String.ofList_toList⟩, by simpa using hne⟩

theorem mem_allowed_parse {text name : String} :
    name ∈ (parse text).allowed ↔ name ∈ written text ∧ ¬ Excludes name := by
  rw [mem_written_iff]
  simp only [allowed, parse, List.mem_filterMap, List.mem_map]
  constructor
  · rintro ⟨part, ⟨cs, hcs, rfl⟩, hname⟩
    split at hname
    next name' heq =>
      cases hname
      obtain ⟨rfl, hnot⟩ := GroupPart.ofChars_eq_allow_iff.1 heq
      exact ⟨hcs, hnot⟩
    next => cases hname
  · rintro ⟨hmem, hnot⟩
    exact ⟨.allow name, ⟨_, hmem, GroupPart.ofChars_eq_allow_iff.2 ⟨rfl, hnot⟩⟩, rfl⟩

theorem mem_excluded_parse {text name : String} :
    name ∈ (parse text).excluded ↔ "!" ++ name ∈ written text := by
  rw [mem_written_iff]
  simp only [excluded, parse, List.mem_filterMap, List.mem_map]
  constructor
  · rintro ⟨part, ⟨cs, hcs, rfl⟩, hname⟩
    split at hname
    next name' heq =>
      cases hname
      rwa [← GroupPart.ofChars_eq_exclude_iff.1 heq]
    next => cases hname
  · intro hmem
    exact ⟨.exclude name, ⟨_, hmem, GroupPart.ofChars_eq_exclude_iff.2 rfl⟩, rfl⟩

/-- What the parts of an `@flags` group say of a build type: none excludes it, and it is one of those that
exclude nothing, if there are any. -/
def SaysBuildType (parts : List String) (buildType : String) : Prop :=
  "!" ++ buildType ∉ parts ∧
    ((∀ part ∈ parts, Excludes part) ∨ (buildType ∈ parts ∧ ¬ Excludes buildType))

/-- What the parts of an `@options` group say of active flags: none excludes one of them, and those that
exclude nothing are all active. -/
def SaysFlags (parts : List String) (f : FlagSet) : Prop :=
  (∀ t ∈ f.tokens, "!" ++ t ∉ parts) ∧ ∀ part ∈ parts, ¬ Excludes part → part ∈ f.tokens

theorem admitsBuildType_parse {text buildType : String} :
    (parse text).admitsBuildType buildType = true ↔ SaysBuildType (written text) buildType := by
  have hempty : (parse text).allowed.isEmpty = true ↔ ∀ part ∈ written text, Excludes part := by
    rw [List.isEmpty_iff, List.eq_nil_iff_forall_not_mem]
    simp only [mem_allowed_parse, not_and, Decidable.not_not]
  rw [admitsBuildType, Bool.and_eq_true, Bool.or_eq_true, hempty, List.contains_iff_mem,
    mem_allowed_parse, Bool.not_eq_true', List.contains_eq_mem, decide_eq_false_iff_not,
    mem_excluded_parse]
  exact and_comm

theorem admitsFlags_parse {text : String} {f : FlagSet} :
    (parse text).admitsFlags f = true ↔ SaysFlags (written text) f := by
  simp only [admitsFlags, Bool.and_eq_true, List.all_eq_true, Bool.not_eq_true', List.any_eq_false,
    mem_allowed_parse, mem_excluded_parse, FlagSet.has, List.contains_iff_mem]
  constructor
  · rintro ⟨hallowed, hexcluded⟩
    exact ⟨fun t ht hpart => hexcluded t hpart ht, fun part hpart hnot => hallowed part ⟨hpart, hnot⟩⟩
  · rintro ⟨hexcluded, hallowed⟩
    exact ⟨fun part hpart => hallowed part hpart.1 hpart.2, fun t hpart ht => hexcluded t ht hpart⟩

/-- The text of a group that was read is what was written, without the empty parts. -/
theorem text_parse (text : String) : (parse text).text = "|".intercalate (written text) := by
  have hparts : (written text).map String.toList =
      (Text.pieces (· == '|') text.toList).filter (!·.isEmpty) := by
    rw [written, Text.split, List.filter_map, List.map_map]
    simp only [Function.comp_def, String.toList_ofList, List.map_id']
    refine List.filter_congr fun cs _ => ?_
    cases cs <;> simp
  rw [← String.toList_inj, toList_text_parse, String.toList_intercalate, hparts]
  rfl

end Group

/-! ## Keyword and value -/

namespace Directive

/-- The part of a text before its first equals sign, or all of it. -/
def keyword (text : String) : String :=
  String.ofList (text.toList.takeWhile (· != '='))

/-- The part of a text after its first equals sign; nothing if there is none. -/
def value (text : String) : String :=
  String.ofList ((text.toList.dropWhile (· != '=')).drop 1)

/-- The keywords of the directives with a group. -/
def groupKeywords : List String := ["@flags", "@options"]

/-- A text without the empty parts of its group, and with the equals sign of its group. -/
def canonical (text : String) : String :=
  if keyword text ∈ groupKeywords then
    keyword text ++ "=" ++ "|".intercalate (Group.written (value text))
  else text

theorem splitFirst_getD (text : String) :
    (Text.splitFirst '=' text).getD (text, "") = (keyword text, value text) := by
  rw [Text.splitFirst, keyword, value]
  cases hrest : text.toList.dropWhile (· != '=') with
  | nil =>
    have hall : text.toList.takeWhile (· != '=') = text.toList := by
      simpa [hrest] using text.toList.takeWhile_append_dropWhile (p := (· != '='))
    simp [hall]
  | cons c rest => simp

/-- A text with a value is its keyword, an equals sign and its value. -/
theorem eq_of_value_ne_empty {text : String} (h : value text ≠ "") :
    text = keyword text ++ "=" ++ value text := by
  have hsplit := text.toList.takeWhile_append_dropWhile (p := (· != '='))
  cases hrest : text.toList.dropWhile (· != '=') with
  | nil => simp [value, hrest] at h
  | cons c rest =>
    have hc : c = '=' := by
      have hnot := List.head?_dropWhile_not (· != '=') text.toList
      rw [hrest] at hnot
      simpa using hnot
    rw [hrest, hc] at hsplit
    rw [← String.toList_inj, keyword, value, hrest]
    simpa using hsplit.symm

/-- How a text is read, told by its keyword and value. -/
theorem parse_eq (text : String) : parse text =
    if text.toList.head? ≠ some '@' then .ok (raw text)
    else if keyword text = "@flags" then .ok (flags (.parse (value text)))
    else if keyword text = "@options" then .ok (options (.parse (value text)))
    else if keyword text = "@use" then
      if value text = "" then .error (.missingFlag text) else .ok (use (value text))
    else .error (.unknownKeyword text (keyword text)) := by
  simp only [parse, splitFirst_getD, String.isEmpty_iff]

/-! ## The canonical form -/

/-- What a text says as a directive. -/
structure CanonicalForm (text : String) : Prop where
  /-- A text is refused if it starts like a directive and has no keyword of one, or requires no flag. -/
  refused_iff : ∀ e, parse text = .error e ↔ text.toList.head? = some '@' ∧
    ((keyword text = "@use" ∧ value text = "" ∧ e = .missingFlag text) ∨
      (keyword text ∉ ["@flags", "@options", "@use"] ∧ e = .unknownKeyword text (keyword text)))
  /-- A directive has the canonical text of what it was read from, -/
  text_eq : ∀ d, parse text = .ok d → d.text = canonical text
  /-- and that text reads as the same directive, -/
  reads_back : ∀ d, parse text = .ok d → parse d.text = .ok d
  /-- so that it is its own canonical text. -/
  stable : ∀ d, parse text = .ok d → canonical d.text = d.text
  /-- Directives that were read are told apart by their texts. -/
  eq_iff : ∀ other d e, parse text = .ok d → parse other = .ok e → (d = e ↔ d.text = e.text)
  /-- A group admits what its parts say, if it is one of build types -/
  buildTypes : ∀ group, parse text = .ok (flags group) → ∀ buildType,
    (group.admitsBuildType buildType = true ↔ Group.SaysBuildType (Group.written (value text)) buildType)
  /-- or one of flags. -/
  activeFlags : ∀ group, parse text = .ok (options group) → ∀ f,
    (group.admitsFlags f = true ↔ Group.SaysFlags (Group.written (value text)) f)

theorem error_iff {text : String} {e : DirectiveError} : parse text = .error e ↔
    text.toList.head? = some '@' ∧
      ((keyword text = "@use" ∧ value text = "" ∧ e = .missingFlag text) ∨
        (keyword text ∉ ["@flags", "@options", "@use"] ∧ e = .unknownKeyword text (keyword text))) := by
  rw [parse_eq]
  split
  next hat => simp [hat]
  next hat =>
    rw [ne_eq, Decidable.not_not] at hat
    split
    next h => simp [h]
    next hflags =>
      split
      next h => simp [h]
      next hoptions =>
        split
        next huse =>
          split
          next hvalue => simp [hat, huse, hvalue, @eq_comm _ e]
          next hvalue => simp [huse, hvalue]
        next huse => simp [hat, hflags, hoptions, huse, @eq_comm _ e]

/-- How the kind of a directive is read off the text. -/
theorem ok_cases {text : String} {d : Directive} (h : parse text = .ok d) :
    (text.toList.head? ≠ some '@' ∧ d = raw text) ∨
    (keyword text = "@flags" ∧ d = flags (.parse (value text))) ∨
    (keyword text = "@options" ∧ d = options (.parse (value text))) ∨
    (keyword text = "@use" ∧ value text ≠ "" ∧ d = use (value text)) := by
  rw [parse_eq] at h
  split at h
  next hat =>
    cases h
    exact .inl ⟨hat, rfl⟩
  next =>
    split at h
    next hflags =>
      cases h
      exact .inr (.inl ⟨hflags, rfl⟩)
    next =>
      split at h
      next hoptions =>
        cases h
        exact .inr (.inr (.inl ⟨hoptions, rfl⟩))
      next =>
        split at h
        next huse =>
          split at h
          next => cases h
          next hvalue =>
            cases h
            exact .inr (.inr (.inr ⟨huse, hvalue, rfl⟩))
        next => cases h

/-- A text that does not start like a directive has no keyword of one. -/
theorem head?_keyword {text key : String} (h : keyword text = key) (hat : key.toList.head? = some '@') :
    text.toList.head? = some '@' := by
  rw [← h, keyword, String.toList_ofList] at hat
  rw [List.head?_takeWhile, Option.filter_eq_some_iff] at hat
  exact hat.1

theorem text_of_parse {text : String} {d : Directive} (h : parse text = .ok d) : d.text = canonical text := by
  rcases ok_cases h with ⟨hat, rfl⟩ | ⟨hkey, rfl⟩ | ⟨hkey, rfl⟩ | ⟨hkey, hvalue, rfl⟩
  · have hnot : keyword text ∉ groupKeywords := by
      intro hmem
      refine hat (head?_keyword rfl ?_)
      rcases List.mem_cons.1 hmem with hkey | hmem
      · rw [hkey]
        rfl
      · rw [List.mem_singleton.1 hmem]
        rfl
    rw [canonical, if_neg hnot, Directive.text]
  · rw [canonical, if_pos (by simp [groupKeywords, hkey]), Directive.text, Group.text_parse, hkey]
    rfl
  · rw [canonical, if_pos (by simp [groupKeywords, hkey]), Directive.text, Group.text_parse, hkey]
    rfl
  · rw [canonical, if_neg (by simp [groupKeywords, hkey]), Directive.text]
    have hwhole := eq_of_value_ne_empty hvalue
    rw [hkey] at hwhole
    exact hwhole.symm

/-- A directive that was read is read back from its text. -/
theorem parse_text_of_parse {text : String} {d : Directive} (h : parse text = .ok d) : parse d.text = .ok d :=
  (parse_text_iff (representable_of_parse h).1).2 (representable_of_parse h).2

/-- Every text has a canonical form, if it is not refused. -/
theorem canonicalForm (text : String) : CanonicalForm text where
  refused_iff := fun _ => error_iff
  text_eq := fun _ => text_of_parse
  reads_back := fun _ => parse_text_of_parse
  stable := fun _ h => (text_of_parse (parse_text_of_parse h)).symm
  eq_iff := fun other d e hd he => by
    refine ⟨congrArg Directive.text, fun htext => ?_⟩
    have hsame := parse_text_of_parse hd
    rw [htext, parse_text_of_parse he] at hsame
    exact (Except.ok.inj hsame).symm
  buildTypes := fun group h buildType => by
    have hgroup : group = .parse (value text) := by
      rcases ok_cases h with ⟨-, heq⟩ | ⟨-, heq⟩ | ⟨-, heq⟩ | ⟨-, -, heq⟩
      · cases heq
      · exact Directive.flags.inj heq
      · cases heq
      · cases heq
    rw [hgroup]
    exact Group.admitsBuildType_parse
  activeFlags := fun group h f => by
    have hgroup : group = .parse (value text) := by
      rcases ok_cases h with ⟨-, heq⟩ | ⟨-, heq⟩ | ⟨-, heq⟩ | ⟨-, -, heq⟩
      · cases heq
      · cases heq
      · exact Directive.options.inj heq
      · cases heq
    rw [hgroup]
    exact Group.admitsFlags_parse

/-- Bars next to each other and an equals sign that is missing are put in order; marks in a row are not. -/
example : canonical "@flags=|gtk||!!x|" = "@flags=gtk|!!x" ∧ canonical "@options" = "@options=" ∧
    canonical "@use=a=b" = "@use=a=b" := by decide

end Directive

end VariantBuild

import VariantBuild.Dependency.Scan
import VariantBuild.Proofs.Activity
/-!
# Layouts of make rules

A compiler may break a make rule into lines as it likes. Between two prerequisites stand gaps, which are blanks
and continued line ends in any mixture (`Gap`), and whatever gaps there are, the prerequisites of the rule are
read back in order (`Layout`).

The reason is that joining continued lines has no effect of its own. A join puts a blank where a gap was, and
a gap without its backslash is blank anyway (`Joins.wordsOf_eq`). So the words of any output can be read off
the text with all backslashes deleted, rule or not.
-/

namespace VariantBuild

namespace Text

variable {xs cs : List Char} {c : Char}

/-! ## Words and blanks -/

theorem wordsOf_append_cons (h : isBlank c = true) (xs cs : List Char) :
    wordsOf (xs ++ c :: cs) = wordsOf xs ++ wordsOf cs := by
  rw [wordsOf, pieces_append_cons h, List.filter_append]
  rfl

/-- Blanks in front of a text make no word. -/
theorem wordsOf_blanks_append (h : ∀ c ∈ xs, isBlank c = true) (cs : List Char) :
    wordsOf (xs ++ cs) = wordsOf cs := by
  induction xs with
  | nil => rfl
  | cons c xs ih =>
    obtain ⟨hc, hxs⟩ := List.forall_mem_cons.1 h
    rw [List.cons_append, ← ih hxs]
    exact wordsOf_append_cons hc [] (xs ++ cs)

/-- Blanks inside a text part its words, however many there are. -/
theorem wordsOf_append_blanks (hne : xs ≠ []) (h : ∀ c ∈ xs, isBlank c = true) (front cs : List Char) :
    wordsOf (front ++ xs ++ cs) = wordsOf front ++ wordsOf cs := by
  obtain ⟨c, xs, rfl⟩ := List.exists_cons_of_ne_nil hne
  obtain ⟨hc, hxs⟩ := List.forall_mem_cons.1 h
  rw [List.append_assoc, List.cons_append, wordsOf_append_cons hc, wordsOf_blanks_append hxs]

theorem wordsOf_eq_singleton (hne : xs ≠ []) (h : ∀ c ∈ xs, isBlank c = false) : wordsOf xs = [xs] := by
  rw [wordsOf, pieces_eq_singleton h]
  simpa using hne

end Text

namespace Dependency

/-! ## What follows the colon -/

variable {front back cs ds : List Char}

theorem afterColon_of_notMem (h : ':' ∉ cs) : afterColon cs = cs := by
  have hall : ∀ c ∈ cs, (c != ':') = true := by
    intro c hc
    simpa using fun heq : c = ':' => h (heq ▸ hc)
  have hdrop : cs.dropWhile (· != ':') = [] := by
    rw [List.dropWhile_eq_nil_iff]
    exact hall
  rw [afterColon, hdrop]

theorem afterColon_append (h : ':' ∉ front) (back : List Char) : afterColon (front ++ ':' :: back) = back := by
  have hall : ∀ c ∈ front, (c != ':') = true := by
    intro c hc
    simpa using fun heq : c = ':' => h (heq ▸ hc)
  rw [afterColon, List.dropWhile_append_of_pos hall]
  rfl

/-- Which of two texts in a row the colon is in. -/
theorem afterColon_append_eq (front cs : List Char) : afterColon (front ++ cs) =
    if ':' ∈ front then afterColon front ++ cs else if ':' ∈ cs then afterColon cs else front ++ cs := by
  split
  next h =>
    obtain ⟨a, b, rfl, ha⟩ := List.eq_append_cons_of_mem h
    rw [List.append_assoc, List.cons_append, afterColon_append ha, afterColon_append ha]
  next h =>
    split
    next hcs =>
      obtain ⟨a, b, rfl, ha⟩ := List.eq_append_cons_of_mem hcs
      rw [← List.append_assoc, afterColon_append (by simp [h, ha]), afterColon_append ha]
    next hcs => exact afterColon_of_notMem (by simp [h, hcs])

/-- The words behind the colon, in a text with blanks somewhere: it does not matter which blanks. -/
theorem wordsOf_afterColon_blanks {xs : List Char} (hne : xs ≠ [])
    (hblank : ∀ c ∈ xs, Text.isBlank c = true) (front cs : List Char) :
    Text.wordsOf (afterColon (front ++ xs ++ cs)) =
      if ':' ∈ front then Text.wordsOf (afterColon front) ++ Text.wordsOf cs
      else if ':' ∈ cs then Text.wordsOf (afterColon cs) else Text.wordsOf front ++ Text.wordsOf cs := by
  have hxs : ':' ∉ xs := fun hmem => absurd (hblank ':' hmem) (by decide)
  rw [List.append_assoc, afterColon_append_eq]
  split
  next => rw [← List.append_assoc, Text.wordsOf_append_blanks hne hblank]
  next =>
    simp only [List.mem_append, or_iff_right hxs]
    split
    next hcs => rw [afterColon_append_eq, if_neg hxs, if_pos hcs]
    next => rw [← List.append_assoc, Text.wordsOf_append_blanks hne hblank]

/-! ## Gaps -/

/-- What may stand between two prerequisites. -/
inductive Gap where
  | blank (c : Char) (isBlank : Text.isBlank c = true)
  /-- A backslash before a line feed. -/
  | continued
  /-- A backslash before a carriage return and a line feed. -/
  | continuedReturned

/-- The characters of a gap. -/
def Gap.chars : Gap → List Char
  | blank c _ => [c]
  | continued => ['\\', '\n']
  | continuedReturned => ['\\', '\r', '\n']

/-- The text without its backslashes. -/
def strip (cs : List Char) : List Char :=
  cs.filter (· != '\\')

theorem strip_append (cs ds : List Char) : strip (cs ++ ds) = strip cs ++ strip ds :=
  List.filter_append ..

theorem strip_colon (cs : List Char) : strip (':' :: cs) = ':' :: strip cs := rfl

theorem strip_of_notMem (h : '\\' ∉ cs) : strip cs = cs := by
  refine List.filter_eq_self.2 fun c hc => ?_
  simpa using fun heq : c = '\\' => h (heq ▸ hc)

/-- Without its backslash a gap is blank, and still there. -/
theorem Gap.strip_chars (g : Gap) : strip g.chars ≠ [] ∧ ∀ c ∈ strip g.chars, Text.isBlank c = true := by
  cases g with
  | blank c h =>
    have hne : '\\' ∉ [c] := by
      rw [List.mem_singleton]
      rintro rfl
      exact absurd h (by decide)
    rw [chars, strip_of_notMem hne]
    simpa using h
  | continued => exact ⟨List.cons_ne_nil _ _, List.forall_mem_singleton.2 rfl⟩
  | continuedReturned =>
    exact ⟨List.cons_ne_nil _ _, List.forall_mem_cons.2 ⟨rfl, List.forall_mem_singleton.2 rfl⟩⟩

/-! ## Joining lines -/

/-- A text in which some gaps have been joined to one blank each. -/
inductive Joins : List Char → List Char → Prop
  | nil : Joins [] []
  | keep (c : Char) {text joined : List Char} : Joins text joined → Joins (c :: text) (c :: joined)
  | join (g : Gap) {text joined : List Char} : Joins text joined → Joins (g.chars ++ text) (' ' :: joined)

theorem joins_joinLines (text : List Char) : Joins text (joinLines text) := by
  induction text using joinLines.induct with
  | case1 => exact .nil
  | case2 text ih => exact .join .continued ih
  | case3 c text hno ih =>
    rw [joinLines]
    · exact .keep c ih
    · exact hno

theorem joins_joinReturnedLines (text : List Char) : Joins text (joinReturnedLines text) := by
  induction text using joinReturnedLines.induct with
  | case1 => exact .nil
  | case2 text ih => exact .join .continuedReturned ih
  | case3 c text hno ih =>
    rw [joinReturnedLines]
    · exact .keep c ih
    · exact hno

/-- Joins make no difference to the words behind the colon, once the backslashes are gone. -/
theorem Joins.wordsOf_eq (h : Joins cs ds) (front : List Char) :
    Text.wordsOf (afterColon (front ++ strip ds)) = Text.wordsOf (afterColon (front ++ strip cs)) := by
  -- for any text in front, since that is where the characters go that are kept
  induction h generalizing front with
  | nil => rfl
  | @keep c text joined _ ih =>
    have hkeep : ∀ cs, front ++ strip (c :: cs) = front ++ strip [c] ++ strip cs := by
      intro cs
      rw [List.append_assoc, ← strip_append, List.singleton_append]
    rw [hkeep joined, hkeep text, ih]
  | @join g text joined _ ih =>
    obtain ⟨hne, hblank⟩ := g.strip_chars
    have hspace : ∀ c ∈ [' '], Text.isBlank c = true := List.forall_mem_singleton.2 rfl
    calc Text.wordsOf (afterColon (front ++ strip (' ' :: joined)))
        = Text.wordsOf (afterColon (front ++ [' '] ++ strip joined)) := by
          rw [List.append_assoc]
          rfl
      _ = Text.wordsOf (afterColon (front ++ strip g.chars ++ strip joined)) := by
          rw [wordsOf_afterColon_blanks (List.cons_ne_nil _ _) hspace, wordsOf_afterColon_blanks hne hblank]
      _ = Text.wordsOf (afterColon (front ++ strip (g.chars ++ text))) := by
          rw [ih, strip_append, List.append_assoc]

/-- The prerequisites of an output are the words behind the first colon of the text without backslashes. -/
theorem prerequisites_eq (output : String) : prerequisites output =
    (Text.wordsOf (afterColon (strip output.toList))).map String.ofList := by
  have hlines : Text.wordsOf (afterColon (strip (joinLines output.toList))) =
      Text.wordsOf (afterColon (strip output.toList)) := (joins_joinLines _).wordsOf_eq []
  have hreturned : Text.wordsOf (afterColon (onOneLine output.toList)) =
      Text.wordsOf (afterColon (strip (joinLines output.toList))) :=
    (joins_joinReturnedLines _).wordsOf_eq []
  rw [prerequisites, hreturned, hlines]

/-! ## Rules as they are laid out -/

/-- A path that a rule can list: a word without backslashes. -/
structure Prerequisite where
  text : String
  ne_empty : text ≠ ""
  noBlank : text.toList.any Text.isBlank = false
  noBackslash : '\\' ∉ text.toList

/-- A dependency behind the gaps that part it from what is listed before it. -/
structure Dependent where
  gaps : List Gap
  gaps_ne_nil : gaps ≠ []
  prerequisite : Prerequisite

/-- A make rule with its layout. -/
structure Layout where
  target : String
  noColon : ':' ∉ target.toList
  lead : List Gap
  first : Prerequisite
  rest : List Dependent
  trail : List Gap

/-- Gaps in a row. -/
def fill (gaps : List Gap) : List Char :=
  gaps.flatMap Gap.chars

/-- The characters from the gaps before a dependency to its end. -/
def Dependent.chars (x : Dependent) : List Char :=
  fill x.gaps ++ x.prerequisite.text.toList

namespace Layout

/-- What stands behind the first prerequisite. -/
def tail (rest : List Dependent) (trail : List Gap) : List Char :=
  rest.flatMap Dependent.chars ++ fill trail

/-- The rule as it is printed. -/
def text (r : Layout) : String :=
  String.ofList (r.target.toList ++
    ':' :: (fill r.lead ++ (r.first.text.toList ++ tail r.rest r.trail)))

/-- The dependencies in the order of the rule. -/
def listed (r : Layout) : List Path :=
  r.rest.map fun x => ⟨x.prerequisite.text⟩

end Layout

variable {gaps : List Gap}

theorem isBlank_of_mem_strip_fill {c : Char} (hc : c ∈ strip (fill gaps)) : Text.isBlank c = true := by
  obtain ⟨hc, hne⟩ := List.mem_filter.1 hc
  obtain ⟨g, -, hg⟩ := List.mem_flatMap.1 hc
  exact g.strip_chars.2 c (List.mem_filter.2 ⟨hg, hne⟩)

theorem strip_fill_ne_nil (h : gaps ≠ []) : strip (fill gaps) ≠ [] := by
  obtain ⟨g, gaps, rfl⟩ := List.exists_cons_of_ne_nil h
  rw [fill, List.flatMap_cons, strip_append]
  exact List.append_ne_nil_of_left_ne_nil g.strip_chars.1 _

namespace Prerequisite

variable (p : Prerequisite)

theorem wordsOf_eq : Text.wordsOf p.text.toList = [p.text.toList] :=
  Text.wordsOf_eq_singleton (by simpa using p.ne_empty) (by simpa using p.noBlank)

theorem strip_eq : strip p.text.toList = p.text.toList :=
  strip_of_notMem p.noBackslash

/-- A prerequisite and what follows it are read back word by word. -/
theorem wordsOf_tail (rest : List Dependent) (trail : List Gap) :
    Text.wordsOf (p.text.toList ++ strip (Layout.tail rest trail)) =
      p.text.toList :: rest.map (·.prerequisite.text.toList) := by
  induction rest generalizing p with
  | nil =>
    rw [Layout.tail, List.flatMap_nil, List.nil_append, List.map_nil]
    by_cases htrail : trail = []
    · rw [htrail, show strip (fill []) = [] from rfl, List.append_nil, p.wordsOf_eq]
    · have h := Text.wordsOf_append_blanks (strip_fill_ne_nil htrail)
        (fun _ => isBlank_of_mem_strip_fill) p.text.toList []
      rw [List.append_nil] at h
      rw [h, p.wordsOf_eq]
      rfl
  | cons x rest ih =>
    have htail : strip (Layout.tail (x :: rest) trail) = strip (fill x.gaps) ++
        (x.prerequisite.text.toList ++ strip (Layout.tail rest trail)) := by
      rw [Layout.tail, List.flatMap_cons, Dependent.chars, List.append_assoc, List.append_assoc,
        strip_append, strip_append, x.prerequisite.strip_eq]
      rfl
    rw [htail, ← List.append_assoc, Text.wordsOf_append_blanks (strip_fill_ne_nil x.gaps_ne_nil)
      (fun _ => isBlank_of_mem_strip_fill), p.wordsOf_eq, ih, List.map_cons]
    rfl

end Prerequisite

namespace Layout

variable (r : Layout)

theorem prerequisites_text : prerequisites r.text = r.first.text :: r.rest.map (·.prerequisite.text) := by
  have hcolon : ':' ∉ strip r.target.toList := fun h => r.noColon (List.mem_filter.1 h).1
  have hstrip : strip r.text.toList = strip r.target.toList ++
      ':' :: (strip (fill r.lead) ++ (r.first.text.toList ++ strip (tail r.rest r.trail))) := by
    rw [text, String.toList_ofList, strip_append, strip_colon, strip_append, strip_append,
      r.first.strip_eq]
  rw [prerequisites_eq, hstrip, afterColon_append hcolon,
    Text.wordsOf_blanks_append (fun _ => isBlank_of_mem_strip_fill), r.first.wordsOf_tail, List.map_cons,
    List.map_map, String.ofList_toList]
  simp [Function.comp_def]

theorem dependencies_text : dependencies r.text = r.listed := by
  rw [dependencies, r.prerequisites_text, List.tail_cons, List.map_map]
  rfl

theorem unexpectedFirst?_text (source : Path) : unexpectedFirst? source r.text =
    if Path.SamePlace ⟨r.first.text⟩ source then none else some r.first.text := by
  rw [unexpectedFirst?, r.prerequisites_text]

/-- A rescan whose scan prints the rule keeps its dependencies, and warns exactly if the first prerequisite
is not the source. -/
theorem perform_rescanEntry {scan : Scanner} {entry : SourceEntry} {w w' : World}
    (h : (scan entry.1 entry.2.includePaths).perform w = (.ok r.text, w')) :
    (rescanEntry scan entry).perform w = (.ok (entry.1, { entry.2 with dependencies := r.listed }),
      if Path.SamePlace ⟨r.first.text⟩ entry.1 then w'
      else w'.notify (.unexpectedFirst entry.1 r.first.text)) := by
  rw [rescanEntry, Activity.perform_bind_of_ok h, r.unexpectedFirst?_text, r.dependencies_text]
  by_cases hsame : Path.SamePlace ⟨r.first.text⟩ entry.1
  · rw [if_pos hsame, if_pos hsame]
    rfl
  · rw [if_neg hsame, if_neg hsame]
    rfl

end Layout

/-- Make rules are read back whatever their layout, and any output at all is read as the words behind the
first colon of the text without its backslashes. -/
theorem dependencies_layout_free :
    (∀ (r : Layout) (source : Path), dependencies r.text = r.listed ∧
      unexpectedFirst? source r.text =
        if Path.SamePlace ⟨r.first.text⟩ source then none else some r.first.text) ∧
    (∀ (r : Layout) (scan : Scanner) (entry : SourceEntry) (w w' : World),
      (scan entry.1 entry.2.includePaths).perform w = (.ok r.text, w') →
      (rescanEntry scan entry).perform w = (.ok (entry.1, { entry.2 with dependencies := r.listed }),
        if Path.SamePlace ⟨r.first.text⟩ entry.1 then w'
        else w'.notify (.unexpectedFirst entry.1 r.first.text))) ∧
    (∀ output front back : String, String.ofList (strip output.toList) = front ++ ":" ++ back →
      ':' ∉ front.toList → dependencies output = (Text.words back).tail.map Path.mk) ∧
    ∀ output : String, ':' ∉ output.toList →
      dependencies output = (Text.words (String.ofList (strip output.toList))).tail.map Path.mk := by
  refine ⟨fun r source => ⟨r.dependencies_text, r.unexpectedFirst?_text source⟩,
    fun r _ _ _ _ h => r.perform_rescanEntry h, ?_, ?_⟩
  · intro output front back hcut hfront
    have hchars : strip output.toList = front.toList ++ ':' :: back.toList := by
      simpa using String.toList_inj.2 hcut
    rw [dependencies, prerequisites_eq, hchars, afterColon_append hfront]
    rfl
  · intro output hcolon
    have hstrip : ':' ∉ strip output.toList := fun h => hcolon (List.mem_filter.1 h).1
    rw [dependencies, prerequisites_eq, afterColon_of_notMem hstrip, Text.words, String.toList_ofList]

namespace Sample

/-- A rule whose lines end in both ways, with a dependency that is listed twice and holds a colon. -/
def layout : Layout where
  target := "b\\cpu.o"
  noColon := by decide
  lead := [.blank ' ' (by decide)]
  first := ⟨"src/cpu.c", by decide, by decide, by decide⟩
  rest := [
    ⟨[.continued, .blank ' ' (by decide), .continuedReturned], by simp,
      ⟨"C:/cpu.h", by decide, by decide, by decide⟩⟩,
    ⟨[.blank '\t' (by decide)], by simp, ⟨"all.h", by decide, by decide, by decide⟩⟩,
    ⟨[.continuedReturned], by simp, ⟨"C:/cpu.h", by decide, by decide, by decide⟩⟩]
  trail := [.continued, .blank '\n' (by decide)]

end Sample

/-- A warning is given for another source, not for another spelling of it. Outputs that are no rules are read,
too: a second colon stays, and without one the first word is dropped all the same. -/
theorem sample_layout_free :
    Sample.layout.text =
      "b\\cpu.o: src/cpu.c\\\n \\\r\nC:/cpu.h\tall.h\\\r\nC:/cpu.h\\\n\n" ∧
    dependencies Sample.layout.text = [⟨"C:/cpu.h"⟩, ⟨"all.h"⟩, ⟨"C:/cpu.h"⟩] ∧
    unexpectedFirst? ⟨"src/./cpu.c"⟩ Sample.layout.text = none ∧
    unexpectedFirst? ⟨"cpu.c"⟩ Sample.layout.text = some "src/cpu.c" ∧
    ((rescanEntry (fun _ _ => pure Sample.layout.text) (⟨"cpu.c"⟩, ⟨[], [], [], []⟩)).perform
        (.ofDisk ⟨[], [], 0⟩)).2.notices = [.unexpectedFirst ⟨"cpu.c"⟩ "src/cpu.c"] ∧
    dependencies "a\\:: b\\\\c\\\n d" = [⟨"bc"⟩, ⟨"d"⟩] ∧
    dependencies "a b\\ c" = [⟨"b"⟩, ⟨"c"⟩] := by
  obtain ⟨hrule, hrescan, houtput, hnone⟩ := dependencies_layout_free
  obtain ⟨hlisted, hsame⟩ := hrule Sample.layout ⟨"src/./cpu.c"⟩
  have hother := (hrule Sample.layout ⟨"cpu.c"⟩).2
  have hnotice := hrescan Sample.layout (fun _ _ => pure Sample.layout.text)
    (⟨"cpu.c"⟩, ⟨[], [], [], []⟩) (.ofDisk ⟨[], [], 0⟩) (.ofDisk ⟨[], [], 0⟩) rfl
  refine ⟨by decide, hlisted, hsame.trans (by decide), hother.trans (by decide), ?_, ?_, ?_⟩
  · rw [hnotice]
    decide
  · rw [houtput _ "a" ": bc\n d" (by decide) (by decide)]
    decide
  · rw [hnone _ (by decide)]
    decide

end Dependency

end VariantBuild

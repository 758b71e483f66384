import VariantBuild.Proofs.Selection.Settled
/-!
# Directives alone

Which flags are added depends on no file: the directives alone decide which passes are made, up to the
one in which no flag is missing (`Selector.directivePasses`). The files that these passes look at
decide one thing more, whether all of them can be made. A pass that is given up looks at files like any other,
under flags that do not last, and a file that it cannot query ends the resolution
(`resolve_of_directivePasses`) even where the settled flags leave that file out (`sample_discarded_fault`).
-/

namespace VariantBuild

/-- The flag that a verdict asks for. -/
def Verdict.required? : Verdict → Option String
  | required token => some token
  | admitted _ | skipped _ => none

namespace Selector

/-- The flag that a pass asks for: the first that an entry requires, whatever the files. -/
def demand? (f : FlagSet) (entries : List SourceEntry) : Option String :=
  entries.findSome? fun entry => (judge f entry.2.flags).required?

/-- The entries whose files a pass looks at: those that it admits before an entry requires a flag. -/
def looksAt (f : FlagSet) (entries : List SourceEntry) : List SourceEntry :=
  (entries.takeWhile fun entry => (judge f entry.2.flags).required?.isNone).filter (·.2.admitted f)

/-- Why the files of an entry cannot be queried, if they cannot. -/
def fault? (s : Selector) (d : Disk) (f : FlagSet) (entry : SourceEntry) : Option BuildError :=
  match s.staleness d f entry with
  | .ok _ => none
  | .error e => some e

/-- The first fault that a pass comes upon. -/
def passFault? (s : Selector) (d : Disk) (entries : List SourceEntry) (f : FlagSet) :
    Option BuildError :=
  (looksAt f entries).findSome? (s.fault? d f)

/-- The passes that the directives ask for, with at most `allowed` restarts: the flags of those that are
given up, and the flags of the one in which none is missing. -/
def directivePasses (entries : List SourceEntry) (allowed : Nat) (f : FlagSet) :
    Option (List FlagSet × FlagSet) :=
  match demand? f.pruneWidths entries, allowed with
  | none, _ => some ([], f.pruneWidths)
  | some _, 0 => none
  | some token, allowed + 1 =>
    (directivePasses entries allowed (f.pruneWidths.add token)).map fun passes =>
      (f.pruneWidths :: passes.1, passes.2)

variable {s : Selector} {d : Disk} {f settled : FlagSet} {entry : SourceEntry}
  {entries : List SourceEntry} {givenUp : List FlagSet} {t : String}

/-! ## One entry in front -/

theorem required?_judge_eq_none (h : entry.2.admitted f = true) :
    (judge f entry.2.flags).required? = none := by
  rw [judge_eq_admitted_iff.2 ⟨h, rfl⟩]
  rfl

theorem admitted_eq_false_of_skipped {cause : Skip} (h : judge f entry.2.flags = .skipped cause) :
    entry.2.admitted f = false := by
  rw [Bool.eq_false_iff]
  intro ha
  rw [judge_eq_admitted_iff.2 ⟨ha, rfl⟩] at h
  cases h

theorem demand?_cons_of_none (h : (judge f entry.2.flags).required? = none) :
    demand? f (entry :: entries) = demand? f entries := by
  rw [demand?, List.findSome?_cons, h]
  rfl

theorem demand?_cons_of_required (h : judge f entry.2.flags = .required t) :
    demand? f (entry :: entries) = some t := by
  rw [demand?, List.findSome?_cons, h]
  rfl

/-- A pass does not look at an entry that it skips. -/
theorem passFault?_cons_of_skipped {cause : Skip} (h : judge f entry.2.flags = .skipped cause) :
    s.passFault? d (entry :: entries) f = s.passFault? d entries f := by
  have ha := admitted_eq_false_of_skipped h
  simp [passFault?, looksAt, h, Verdict.required?, ha]

/-- Nor does it look at anything from the entry on that requires a flag. -/
theorem passFault?_cons_of_required (h : judge f entry.2.flags = .required t) :
    s.passFault? d (entry :: entries) f = none := by
  simp [passFault?, looksAt, h, Verdict.required?]

theorem passFault?_cons_of_admitted (h : entry.2.admitted f = true) :
    s.passFault? d (entry :: entries) f = (s.fault? d f entry).or (s.passFault? d entries f) := by
  have hreq := required?_judge_eq_none h
  simp only [passFault?, looksAt, List.takeWhile_cons, hreq, Option.isNone_none, if_true, List.filter_cons, h,
    List.findSome?_cons]
  cases s.fault? d f entry <;> rfl

/-! ## One pass -/

/-- A pass is what its directives ask for, unless it comes upon a fault before. -/
theorem attempt_eq_of_demand (s : Selector) (d : Disk) (f : FlagSet) (entries : List SourceEntry) :
    s.attempt d f entries = match s.passFault? d entries f, demand? f entries with
      | some e, _ => .error e
      | none, some token => .ok (.restart (f.add token))
      | none, none => .ok (.stable (s.selectionUnder d f entries)) := by
  induction entries with
  | nil => rfl
  | cons entry entries ih =>
    rw [attempt]
    cases hj : judge f entry.2.flags with
    | skipped cause =>
      have ha := admitted_eq_false_of_skipped hj
      have hnone : (judge f entry.2.flags).required? = none := by rw [hj]; rfl
      rw [passFault?_cons_of_skipped hj, demand?_cons_of_none hnone, ih]
      simp [selectionUnder, ha]
    | required token => rw [passFault?_cons_of_required hj, demand?_cons_of_required hj]
    | admitted arguments =>
      obtain ⟨ha, rfl⟩ := judge_eq_admitted_iff.1 hj
      rw [passFault?_cons_of_admitted ha, demand?_cons_of_none (required?_judge_eq_none ha), fault?]
      cases hs : s.staleness d f entry with
      | error e => rfl
      | ok reason =>
        -- the entry adds itself to a stable selection, and nothing to any other end
        simp only [ih, Option.none_or]
        cases s.passFault? d entries f with
        | some e => rfl
        | none =>
          cases demand? f entries with
          | some token => rfl
          | none => cases reason <;> simp [selectionUnder, ha, prepend, compileTask?, hs]

/-- A pass looks only at entries that it admits. -/
theorem mem_of_mem_looksAt (h : entry ∈ looksAt f entries) :
    entry ∈ entries ∧ entry.2.admitted f = true := by
  obtain ⟨htake, hadmitted⟩ := List.mem_filter.1 h
  exact ⟨(List.takeWhile_sublist _).subset htake, hadmitted⟩

/-- A fault is that of an entry which the pass looks at. -/
theorem exists_looksAt_of_passFault? {e : BuildError} (h : s.passFault? d entries f = some e) :
    ∃ entry ∈ looksAt f entries, s.staleness d f entry = .error e := by
  obtain ⟨entry, hlooks, hfault⟩ := List.exists_of_findSome?_eq_some h
  refine ⟨entry, hlooks, ?_⟩
  rw [fault?] at hfault
  split at hfault
  · cases hfault
  · next hs =>
    cases hfault
    exact hs

/-- A pass comes upon no fault if the files of all entries that it looks at can be queried. -/
theorem passFault?_eq_none_iff : s.passFault? d entries f = none ↔
    ∀ entry ∈ looksAt f entries, ∃ reason, s.staleness d f entry = .ok reason := by
  rw [passFault?, List.findSome?_eq_none_iff]
  refine forall₂_congr fun entry _ => ?_
  rw [fault?]
  cases s.staleness d f entry <;> simp

/-- A fault is that of a file which cannot be queried, of an entry that the pass admits. -/
theorem exists_admitted_of_passFault? {e : BuildError} (h : s.passFault? d entries f = some e) :
    ∃ entry ∈ entries, entry.2.admitted f = true ∧ s.staleness d f entry = .error e ∧
      ∃ p cause, e = .io p cause := by
  obtain ⟨entry, hlooks, hs⟩ := exists_looksAt_of_passFault? h
  obtain ⟨hentry, hadmitted⟩ := mem_of_mem_looksAt hlooks
  refine ⟨entry, hentry, hadmitted, hs, ?_⟩
  rw [staleness] at hs
  exact Staleness.exists_io_of_check_eq_error hs

/-! ## All passes -/

variable {allowed : Nat}

/-- The directives settle at once, or one restart later. -/
theorem directivePasses_cases (h : directivePasses entries allowed f = some (givenUp, settled)) :
    (demand? f.pruneWidths entries = none ∧ givenUp = [] ∧ settled = f.pruneWidths) ∨
    (∃ token fewer rest, demand? f.pruneWidths entries = some token ∧ allowed = fewer + 1 ∧
      givenUp = f.pruneWidths :: rest ∧
      directivePasses entries fewer (f.pruneWidths.add token) = some (rest, settled)) := by
  rw [directivePasses.eq_def] at h
  split at h
  · next hnone =>
    cases h
    exact .inl ⟨hnone, rfl, rfl⟩
  · cases h
  · next token fewer hsome =>
    obtain ⟨⟨rest, last⟩, hrest, heq⟩ := Option.map_eq_some_iff.1 h
    cases heq
    exact .inr ⟨token, fewer, rest, hsome, rfl, rfl, hrest⟩

/-- In the last pass that the directives ask for no flag is missing. -/
theorem demand?_settled (h : directivePasses entries allowed f = some (givenUp, settled)) :
    demand? settled entries = none := by
  induction allowed generalizing f givenUp with
  | zero =>
    obtain ⟨hnone, -, rfl⟩ | ⟨_, _, _, -, hn, -⟩ := directivePasses_cases h
    · exact hnone
    · cases hn
  | succ allowed ih =>
    obtain ⟨hnone, -, rfl⟩ | ⟨token, fewer, rest, -, hn, -, hrest⟩ := directivePasses_cases h
    · exact hnone
    · cases hn
      exact ih hrest

/-- The first fault that several passes come upon, one after another. -/
def firstFault? (s : Selector) (d : Disk) (entries : List SourceEntry) (passes : List FlagSet) :
    Option BuildError :=
  passes.findSome? (s.passFault? d entries)

/-- The loop makes the passes that the directives ask for, up to the first fault. -/
theorem settle_eq_of_directivePasses {restarts : Nat}
    (h : directivePasses entries allowed f = some (givenUp, settled)) :
    s.settle d entries allowed restarts f = match s.firstFault? d entries (givenUp ++ [settled]) with
      | some e => .error e
      | none => .ok ⟨settled, s.selectionUnder d settled entries, restarts + givenUp.length⟩ := by
  -- each restart takes one pass from the front; what is left is made with one restart less
  induction allowed generalizing f givenUp restarts with
  | zero =>
    obtain ⟨hnone, rfl, rfl⟩ | ⟨_, _, _, -, hn, -⟩ := directivePasses_cases h
    · rw [settle, attempt_eq_of_demand, hnone]
      simp only [firstFault?, List.nil_append, List.findSome?_singleton]
      cases s.passFault? d entries f.pruneWidths <;> simp
    · cases hn
  | succ allowed ih =>
    obtain ⟨hnone, rfl, rfl⟩ | ⟨token, fewer, rest, hsome, hn, rfl, hrest⟩ := directivePasses_cases h
    · rw [settle, attempt_eq_of_demand, hnone]
      simp only [firstFault?, List.nil_append, List.findSome?_singleton]
      cases s.passFault? d entries f.pruneWidths <;> simp
    · cases hn
      rw [settle, attempt_eq_of_demand, hsome, firstFault?, List.cons_append, List.findSome?_cons]
      cases s.passFault? d entries f.pruneWidths with
      | some e => rfl
      | none =>
        simp only [ih hrest, firstFault?, List.length_cons, Nat.add_assoc, Nat.add_comm 1]

/-- Resolution makes these passes, up to the first fault. -/
theorem resolve_eq_of_directivePasses {sets : List ManifestSet}
    (h : directivePasses (ManifestSet.allEntries sets) (ManifestSet.useTokens sets).length f =
      some (givenUp, settled)) :
    s.resolve d sets f =
      match s.firstFault? d (ManifestSet.allEntries sets) (givenUp ++ [settled]) with
      | some e => .error e
      | none => .ok ⟨settled, s.selectionUnder d settled (ManifestSet.allEntries sets), givenUp.length⟩ := by
  rw [resolve, settle_eq_of_directivePasses h, Nat.zero_add]

/-- A loop that settles does so at once, or one restart later, as its directives ask for. -/
theorem settle_eq_ok_cases {restarts : Nat} {r : Resolution} (h : s.settle d entries allowed restarts f = .ok r) :
    (demand? f.pruneWidths entries = none ∧ r.flags = f.pruneWidths) ∨
    (∃ token fewer, demand? f.pruneWidths entries = some token ∧ allowed = fewer + 1 ∧
      s.settle d entries fewer (restarts + 1) (f.pruneWidths.add token) = .ok r) := by
  rw [settle.eq_def] at h
  dsimp only at h
  rw [attempt_eq_of_demand] at h
  cases hfault : s.passFault? d entries f.pruneWidths with
  | some e => simp [hfault] at h
  | none =>
    cases hdemand : demand? f.pruneWidths entries with
    | none =>
      simp only [hfault, hdemand, Except.ok.injEq] at h
      exact .inl ⟨rfl, by rw [← h, FlagSet.pruneWidths_pruneWidths]⟩
    | some token =>
      cases allowed with
      | zero => simp [hfault, hdemand] at h
      | succ fewer =>
        simp only [hfault, hdemand] at h
        exact .inr ⟨token, fewer, rfl, rfl, h⟩

/-- Flags on which the loop settles are those on which the directives settle. -/
theorem exists_directivePasses_of_settle {restarts : Nat} {r : Resolution}
    (h : s.settle d entries allowed restarts f = .ok r) :
    ∃ givenUp, directivePasses entries allowed f = some (givenUp, r.flags) := by
  induction allowed generalizing f restarts with
  | zero =>
    obtain ⟨hnone, hflags⟩ | ⟨_, _, -, hn, -⟩ := settle_eq_ok_cases h
    · exact ⟨[], by rw [directivePasses.eq_def, hnone, hflags]⟩
    · cases hn
  | succ allowed ih =>
    obtain ⟨hnone, hflags⟩ | ⟨token, fewer, hsome, hn, hrest⟩ := settle_eq_ok_cases h
    · exact ⟨[], by rw [directivePasses.eq_def, hnone, hflags]⟩
    · cases hn
      obtain ⟨rest, hpasses⟩ := ih hrest
      refine ⟨f.pruneWidths :: rest, ?_⟩
      rw [directivePasses.eq_def, hsome]
      simp only [hpasses, Option.map_some]

/-- What a resolution comes to whose directives settle at the flags `settled` after the passes `givenUp`. -/
structure IsDirected (s : Selector) (d : Disk) (entries : List SourceEntry) (givenUp : List FlagSet)
    (settled : FlagSet) (result : Except BuildError Resolution) : Prop where
  /-- An attempt under the settled flags is stable, unless it comes upon a fault. -/
  attempt : s.attempt d settled entries = match s.passFault? d entries settled with
    | some e => .error e
    | none => .ok (.stable (s.selectionUnder d settled entries))
  /-- The resolution is that attempt, unless any pass comes upon a fault. -/
  passes : result = match s.firstFault? d entries (givenUp ++ [settled]) with
    | some e => .error e
    | none => .ok ⟨settled, s.selectionUnder d settled entries, givenUp.length⟩
  /-- The two agree where no pass is given up at a fault that the attempt does not end in, and nowhere
  else. -/
  agree_iff : (result.map fun r => Attempt.stable r.selection) = s.attempt d settled entries ↔
    ∀ e, s.firstFault? d entries givenUp = some e → s.passFault? d entries settled = some e
  /-- The fault of a pass is that of a file which cannot be queried, of an entry that the pass admits. -/
  fault : ∀ f ∈ givenUp ++ [settled], ∀ e, s.passFault? d entries f = some e →
    ∃ entry ∈ entries, entry.2.admitted f = true ∧ s.staleness d f entry = .error e ∧
      ∃ p cause, e = .io p cause

/-- Where the directives settle within the limit, resolution makes exactly the passes that they ask for.
It ends as the last of them does, except that a fault in a pass that is given up counts as well. -/
theorem resolve_of_directivePasses (s : Selector) (d : Disk) (sets : List ManifestSet) (f settled : FlagSet)
    (givenUp : List FlagSet)
    (h : directivePasses (ManifestSet.allEntries sets) (ManifestSet.useTokens sets).length f =
      some (givenUp, settled)) :
    s.IsDirected d (ManifestSet.allEntries sets) givenUp settled (s.resolve d sets f) := by
  have hattempt : s.attempt d settled (ManifestSet.allEntries sets) =
      match s.passFault? d (ManifestSet.allEntries sets) settled with
      | some e => .error e
      | none => .ok (.stable (s.selectionUnder d settled (ManifestSet.allEntries sets))) := by
    rw [attempt_eq_of_demand, demand?_settled h]
    cases s.passFault? d (ManifestSet.allEntries sets) settled <;> rfl
  refine ⟨hattempt, resolve_eq_of_directivePasses h, ?_, fun _ _ _ => exists_admitted_of_passFault?⟩
  rw [resolve_eq_of_directivePasses h, hattempt, firstFault?, List.findSome?_append,
    List.findSome?_singleton, firstFault?]
  -- an earlier fault hides the one under the settled flags; without it they are the same
  cases givenUp.findSome? (s.passFault? d (ManifestSet.allEntries sets)) with
  | some e =>
    cases s.passFault? d (ManifestSet.allEntries sets) settled with
    | some e' => simp [Except.map, eq_comm]
    | none => simp [Except.map]
  | none =>
    cases s.passFault? d (ManifestSet.allEntries sets) settled with
    | some e' => simp [Except.map]
    | none => simp [Except.map]

namespace Sample

/-- `a.c` takes part only without the flag that `b.c` requires. -/
def unlessShared : ManifestSet :=
  manifest [
    file "a.c" [.options ⟨[.exclude "-fPIC"]⟩],
    file "b.c" [.use "-fPIC"]]

/-- `a.c` is gone, and its object from a build without `-fPIC` is not. -/
def sourceGone : Disk :=
  ⟨[([], .directory 0), (["build"], .directory 0), (["build", "objs"], .directory 0),
    (["b.c"], .file .empty 5),
    (["build", "objs", "16g4etw-a-r0nri5xinhts.o"], .file .empty 7)], [], 9⟩

/-- What is selected under `-fPIC`. -/
def sharedSelection : Selection :=
  ⟨[⟨"b.c"⟩], [task "b.c" "16g4etw-b-r0nri5xinjeo.o" []]⟩

end Sample

/-- The attempt under the settled flags is stable and leaves `a.c` out, and the resolution fails at `a.c`. -/
theorem sample_discarded_fault :
    directivePasses (ManifestSet.allEntries [Sample.unlessShared])
        (ManifestSet.useTokens [Sample.unlessShared]).length (Sample.flags []) =
          some ([Sample.flags []], Sample.flags ["-fPIC"]) ∧
      Sample.selector.attempt Sample.sourceGone (Sample.flags ["-fPIC"])
        (ManifestSet.allEntries [Sample.unlessShared]) = .ok (.stable Sample.sharedSelection) ∧
      Sample.selector.resolve Sample.sourceGone [Sample.unlessShared] (Sample.flags []) =
        .error (.io ⟨"./a.c"⟩ .notFound) := by
  decide +kernel

/-- One pass is given up before the directives of the sample settle. -/
theorem sample_isDirected :
    directivePasses (ManifestSet.allEntries [Sample.unlessShared])
        (ManifestSet.useTokens [Sample.unlessShared]).length (Sample.flags []) =
          some ([Sample.flags []], Sample.flags ["-fPIC"]) ∧
      Sample.selector.IsDirected Sample.sourceGone (ManifestSet.allEntries [Sample.unlessShared])
        [Sample.flags []] (Sample.flags ["-fPIC"])
        (Sample.selector.resolve Sample.sourceGone [Sample.unlessShared] (Sample.flags [])) := by
  have h : directivePasses (ManifestSet.allEntries [Sample.unlessShared])
      (ManifestSet.useTokens [Sample.unlessShared]).length (Sample.flags []) =
        some ([Sample.flags []], Sample.flags ["-fPIC"]) := by decide +kernel
  exact ⟨h, resolve_of_directivePasses _ _ _ _ _ _ h⟩

end Selector

end VariantBuild

import VariantBuild.Disk.Basic
import VariantBuild.Proofs.Except
import VariantBuild.Proofs.Path.Components
/-!
# Directories on the disk

Making directories only adds: what could be found before can be found after, files as they were and
directories with another time at most (`Grows`). Nothing at all is made where the directory is already
there, and it is there if any name below it can be found.

A directory that is there also settles how a name below it is looked up: the name is found, missing, or too
long, and nothing else can go wrong.
-/

namespace VariantBuild.Disk

/-- What making directories does to a node: nothing, unless it is a directory that gets a new entry. -/
def Touches (now : Time) (n n' : Node) : Prop :=
  n' = n ∨ (n.isFile = false ∧ n' = .directory now)

/-- The disk with more on it: what is there stays, but a directory may carry the clock's time. -/
structure Grows (d d' : Disk) : Prop where
  here : d'.here = d.here
  clock : d'.clock = d.clock
  node : ∀ l n, d.node? l = some n → ∃ n', d'.node? l = some n' ∧ Touches d.clock n n'

variable {d d' d'' : Disk} {l m : Location} {n n' : Node} {p : Path} {ps : List String}

/-! ## What paths name -/

theorem walk_append (d : Disk) (l : Location) (ps qs : List String) :
    d.walk l (ps ++ qs) = d.walk l ps >>= fun m => d.walk m qs := by
  induction ps generalizing l with
  | nil => rfl
  | cons p ps ih =>
    rw [List.cons_append, walk, walk]
    split
    · rfl
    · rfl
    · split
      · rfl
      · exact ih _

/-- A walk goes where its pieces say, whatever is on the way. -/
theorem eq_foldl_step_of_walk (h : d.walk l ps = .ok m) : m = ps.foldl step l := by
  induction ps generalizing l with
  | nil =>
    cases h
    rfl
  | cons p ps ih =>
    rw [walk] at h
    split at h
    next => cases h
    next => cases h
    next =>
      split at h
      next => cases h
      next => exact ih h

/-- All that is passed on a walk is directories. -/
theorem walk_eq_of_directories
    (h : ∀ l t, d.node? l = some (.directory t) → ∃ t', d'.node? l = some (.directory t'))
    (hwalk : d.walk l ps = .ok m) : d'.walk l ps = .ok m := by
  induction ps generalizing l with
  | nil => exact hwalk
  | cons p ps ih =>
    rw [walk] at hwalk ⊢
    split at hwalk
    next => cases hwalk
    next => cases hwalk
    next t hl =>
      obtain ⟨t', hl'⟩ := h l t hl
      simp only [hl']
      split at hwalk
      next => cases hwalk
      next hshort =>
        rw [if_neg hshort]
        exact ih hwalk

theorem locate_eq_ok_iff :
    d.locate p = .ok l ↔ refusal? p = none ∧ d.walk (d.origin p) p.pieces = .ok l := by
  rw [locate, follow]
  cases refusal? p <;> simp

/-- Where an absolute path leads does not depend on the disk. -/
theorem eq_foldl_step_of_locate (habsolute : p.isAbsolute = true) (h : d.locate p = .ok l) :
    l = p.pieces.foldl step [] := by
  have hwalk := (locate_eq_ok_iff.1 h).2
  rw [origin, if_pos habsolute] at hwalk
  exact eq_foldl_step_of_walk hwalk

theorem stat_eq_ok_iff : d.stat p = .ok n ↔ ∃ l, d.locate p = .ok l ∧ d.node? l = some n := by
  rw [stat, except_bind_eq_ok_iff]
  refine exists_congr fun l => and_congr_right fun _ => ?_
  cases d.node? l <;> simp

theorem readText_eq_ok_iff {text : String} : d.readText p = .ok text ↔
    ∃ contents t, d.stat p = .ok (.file contents t) ∧ String.fromUTF8? contents = some text := by
  rw [readText, readBytes]
  cases d.stat p with
  | error e => simp [bind, Except.bind]
  | ok n =>
    cases n with
    | directory t => simp [bind, Except.bind]
    | file contents t => cases h : String.fromUTF8? contents <;> simp [bind, Except.bind, h]

/-- A text that was written is read. -/
theorem readText_of_stat {text : String} {t : Time} (h : d.stat p = .ok (.file text.toUTF8 t)) :
    d.readText p = .ok text := by
  refine readText_eq_ok_iff.2 ⟨text.toUTF8, t, h, ?_⟩
  simp only [String.fromUTF8?]
  exact dif_pos text.isValidUTF8

/-! ## Making directories adds -/

theorem Touches.isFile_eq {now : Time} (h : Touches now n n') : n'.isFile = n.isFile := by
  rcases h with rfl | ⟨hn, rfl⟩
  · rfl
  · rw [hn]
    rfl

theorem Touches.trans {now : Time} {n'' : Node} (h : Touches now n n') (h' : Touches now n' n'') :
    Touches now n n'' := by
  rcases h' with rfl | ⟨hn', rfl⟩
  · exact h
  · exact .inr ⟨h.isFile_eq ▸ hn', rfl⟩

theorem Grows.refl (d : Disk) : d.Grows d :=
  ⟨rfl, rfl, fun _ n hn => ⟨n, hn, .inl rfl⟩⟩

theorem Grows.trans (h : d.Grows d') (h' : d'.Grows d'') : d.Grows d'' where
  here := h'.here.trans h.here
  clock := h'.clock.trans h.clock
  node := fun l n hn => by
    obtain ⟨n', hn', htouches⟩ := h.node l n hn
    obtain ⟨n'', hn'', htouches'⟩ := h'.node l n' hn'
    exact ⟨n'', hn'', htouches.trans (h.clock ▸ htouches')⟩

theorem grows_set_of_touches {new : Node} (h : ∀ n, d.node? l = some n → Touches d.clock n new) :
    d.Grows (d.set l new) where
  here := rfl
  clock := rfl
  node := fun m n hn => by
    by_cases hm : m = l
    · subst hm
      exact ⟨new, node?_set_self d m new, h n hn⟩
    · exact ⟨n, (node?_set_of_ne d new hm).trans hn, .inl rfl⟩

theorem grows_touchDirectory (d : Disk) (l : Location) : d.Grows (d.touchDirectory l) := by
  rw [touchDirectory]
  split
  next t ht =>
    refine grows_set_of_touches fun n hn => ?_
    obtain rfl : Node.directory t = n := Option.some.inj (ht.symm.trans hn)
    exact .inr ⟨rfl, rfl⟩
  next => exact .refl d

theorem node?_touchDirectory_eq_none (m : Location) (h : d.node? l = none) :
    (d.touchDirectory m).node? l = none := by
  rw [touchDirectory]
  split
  next t ht =>
    have hne : l ≠ m := by
      rintro rfl
      rw [h] at ht
      cases ht
    exact (node?_set_of_ne d _ hne).trans h
  next => exact h

theorem grows_of_makeDirectory (h : d.makeDirectory p = .ok d') : d.Grows d' := by
  obtain ⟨l, -, hrest⟩ := except_bind_eq_ok_iff.1 h
  split at hrest
  next => cases hrest
  next hnone =>
    cases hrest
    refine (d.grows_touchDirectory l.dropLast).trans (grows_set_of_touches fun n hn => ?_)
    rw [node?_touchDirectory_eq_none _ hnone] at hn
    cases hn

theorem grows_of_ensureDirectory (h : d.ensureDirectory p = .ok d') : d.Grows d' := by
  rw [ensureDirectory] at h
  split at h
  next =>
    split at h
    · cases h
      exact .refl d
    · cases h
  next => exact grows_of_makeDirectory h

/-- Each directory of a chain is made on what the ones before it left, even if one of them fails. -/
theorem grows_makeChain (d : Disk) (ps : List Path) : d.Grows (d.makeChain ps).2 := by
  induction ps generalizing d with
  | nil => exact .refl d
  | cons p parents ih =>
    rw [makeChain]
    split
    next hfirst => exact grows_of_ensureDirectory hfirst
    next =>
      have hparents := ih d
      split
      next heq => simpa only [heq] using hparents
      next heq =>
        rw [heq] at hparents
        split
        next hlast => exact hparents.trans (grows_of_ensureDirectory hlast)
        next => exact hparents
    next => exact .refl d

/-- Making a directory and all that lead to it only adds. -/
theorem grows_makeDirectories (d : Disk) (p : Path) : d.Grows (d.makeDirectories p).2 :=
  d.grows_makeChain _

/-! ## What a grown disk still holds -/

namespace Grows

theorem walk_eq (h : d.Grows d') (hwalk : d.walk l ps = .ok m) : d'.walk l ps = .ok m := by
  refine walk_eq_of_directories (fun l t hl => ?_) hwalk
  obtain ⟨n', hn', htouches⟩ := h.node l _ hl
  cases n' with
  | file contents t' => cases htouches.isFile_eq
  | directory t' => exact ⟨t', hn'⟩

theorem follow_eq (h : d.Grows d') (hfollow : d.follow p ps = .ok l) : d'.follow p ps = .ok l := by
  rw [follow] at hfollow ⊢
  split at hfollow
  next => cases hfollow
  next =>
    rw [origin, h.here]
    exact h.walk_eq hfollow

/-- What a path names is still there. -/
theorem stat_eq (h : d.Grows d') (hstat : d.stat p = .ok n) :
    ∃ n', d'.stat p = .ok n' ∧ Touches d.clock n n' := by
  obtain ⟨l, hlocate, hrest⟩ := except_bind_eq_ok_iff.1 hstat
  split at hrest
  next _ hl =>
    cases hrest
    obtain ⟨n', hn', htouches⟩ := h.node l _ hl
    refine ⟨n', except_bind_eq_ok_iff.2 ⟨l, h.follow_eq hlocate, ?_⟩, htouches⟩
    simp only [hn']
  next => cases hrest

theorem modified_eq {t : Time} (h : d.Grows d') (hmodified : d.modified p = .ok t) :
    ∃ t', d'.modified p = .ok t' ∧ (t' = t ∨ t' = d.clock) := by
  rw [modified] at hmodified
  cases hstat : d.stat p with
  | error e =>
    rw [hstat] at hmodified
    cases hmodified
  | ok n =>
    rw [hstat] at hmodified
    cases hmodified
    obtain ⟨n', hn', htouches⟩ := h.stat_eq hstat
    refine ⟨n'.modified, by rw [modified, hn']; rfl, ?_⟩
    rcases htouches with rfl | ⟨-, rfl⟩
    · exact .inl rfl
    · exact .inr rfl

theorem readText_eq {text : String} (h : d.Grows d') (hread : d.readText p = .ok text) :
    d'.readText p = .ok text := by
  obtain ⟨contents, t, hstat, htext⟩ := readText_eq_ok_iff.1 hread
  obtain ⟨n, hn, rfl | ⟨hdirectory, -⟩⟩ := h.stat_eq hstat
  · exact readText_eq_ok_iff.2 ⟨contents, t, hn, htext⟩
  · cases hdirectory

end Grows

/-! ## Time -/

/-- Nothing is looked up by the clock. -/
@[simp] theorem walk_clock (d : Disk) (t : Time) (l : Location) (ps : List String) :
    walk { d with clock := t } l ps = d.walk l ps := by
  induction ps generalizing l with
  | nil => rfl
  | cons p ps ih =>
    simp only [walk, ih]
    rfl

@[simp] theorem stat_clock (d : Disk) (t : Time) (p : Path) : stat { d with clock := t } p = d.stat p := by
  simp only [stat, locate, follow, walk_clock]
  rfl

@[simp] theorem modified_clock (d : Disk) (t : Time) (p : Path) :
    modified { d with clock := t } p = d.modified p := by
  rw [modified, stat_clock, modified]

@[simp] theorem readText_clock (d : Disk) (t : Time) (p : Path) :
    readText { d with clock := t } p = d.readText p := by
  simp only [readText, readBytes, stat_clock]

/-! ## Directories that are there -/

theorem isDirectory_eq_true_iff :
    d.isDirectory p = true ↔ ∃ l t, d.locate p = .ok l ∧ d.node? l = some (.directory t) := by
  rw [isDirectory]
  constructor
  · intro h
    split at h
    next n hn =>
      obtain ⟨l, hl, hnode⟩ := stat_eq_ok_iff.1 hn
      cases n with
      | directory t => exact ⟨l, t, hl, hnode⟩
      | file contents t => cases h
    next => cases h
  · rintro ⟨l, t, hl, hnode⟩
    rw [stat_eq_ok_iff.2 ⟨l, hl, hnode⟩]
    rfl

/-- Separators at the end of a path do not change where it leads. -/
theorem walk_eq_of_append_void (h : ∀ q ∈ ps, q = "") (hwalk : d.walk l ps = .ok m) : m = l := by
  induction ps generalizing l with
  | nil =>
    cases hwalk
    rfl
  | cons q qs ih =>
    obtain ⟨rfl, hqs⟩ := List.forall_mem_cons.1 h
    rw [walk] at hwalk
    split at hwalk
    next => cases hwalk
    next => cases hwalk
    next =>
      split at hwalk
      next => cases hwalk
      next => exact ih hqs hwalk

theorem makeDirectory_of_isDirectory (h : d.isDirectory p = true) :
    d.makeDirectory p = .error .alreadyExists := by
  obtain ⟨l, t, hlocate, hnode⟩ := isDirectory_eq_true_iff.1 h
  obtain ⟨hrefusal, hwalk⟩ := locate_eq_ok_iff.1 hlocate
  have hpieces : p.pieces = p.pieces.rdropWhile (· == "") ++ p.pieces.rtakeWhile (· == "") :=
    (List.rdropWhile_append_rtakeWhile).symm
  rw [hpieces, walk_append] at hwalk
  -- a directory is made where the path leads without its last separators
  obtain ⟨m, hfront, hback⟩ := except_bind_eq_ok_iff.1 hwalk
  have hm : l = m := walk_eq_of_append_void
    (fun q hq => by simpa using List.mem_rtakeWhile_imp hq) hback
  have hlocate' : d.locateNew p = .ok l := by
    rw [locateNew, follow, hrefusal, hm]
    exact hfront
  exact except_bind_eq_error_iff.2 (.inr ⟨l, hlocate', by simp only [hnode]⟩)

/-- Nothing is made where the directory is there. -/
theorem makeDirectories_of_isDirectory (h : d.isDirectory p = true) :
    d.makeDirectories p = (.ok (), d) := by
  have hensure : d.ensureDirectory p = .ok d := by
    rw [ensureDirectory, makeDirectory_of_isDirectory h]
    simp [h]
  rw [makeDirectories, Path.ancestors, Path.climb]
  cases hparent : p.parent? with
  | none => simp [hparent, makeChain]
  | some q => simp [hparent, makeChain, hensure]

theorem walk_of_forall_eq_void {t : Time} (hnode : d.node? l = some (.directory t))
    (h : ∀ q ∈ ps, q = "") : d.walk l ps = .ok l := by
  induction ps with
  | nil => rfl
  | cons q qs ih =>
    obtain ⟨rfl, hqs⟩ := List.forall_mem_cons.1 h
    have hstep : step l "" = l := rfl
    rw [walk, hnode]
    dsimp only
    rw [if_neg (by decide), hstep, ih hqs]

/-- A directory that has been made is there. -/
theorem isDirectory_of_makeDirectory (h : d.makeDirectory p = .ok d') : d'.isDirectory p = true := by
  have hgrows := grows_of_makeDirectory h
  obtain ⟨l, hlocate, hrest⟩ := except_bind_eq_ok_iff.1 h
  have hnode : d'.node? l = some (.directory d.clock) := by
    split at hrest
    · cases hrest
    · cases hrest
      exact node?_set_self _ l _
  refine isDirectory_eq_true_iff.2 ⟨l, d.clock, ?_, hnode⟩
  -- the separators at the end of the path stay in the new directory
  have hpieces : p.pieces = p.pieces.rdropWhile (· == "") ++ p.pieces.rtakeWhile (· == "") :=
    (List.rdropWhile_append_rtakeWhile).symm
  have hfollow := hgrows.follow_eq hlocate
  rw [follow] at hfollow
  rw [locate, follow]
  split at hfollow
  next => cases hfollow
  next =>
    rw [hpieces, walk_append]
    exact except_bind_eq_ok_iff.2 ⟨l, hfollow, walk_of_forall_eq_void hnode fun q hq => by
      simpa using List.mem_rtakeWhile_imp hq⟩

theorem isDirectory_of_ensureDirectory (h : d.ensureDirectory p = .ok d') : d'.isDirectory p = true := by
  rw [ensureDirectory] at h
  split at h
  next =>
    split at h
    next hdirectory =>
      cases h
      exact hdirectory
    next => cases h
  next => exact isDirectory_of_makeDirectory h

/-- Making directories that succeeds leaves the directory there; only a path without a parent asks for
nothing. -/
theorem makeDirectories_cases (h : (d.makeDirectories p).1 = .ok ()) :
    (d.makeDirectories p).2 = d ∨ (d.makeDirectories p).2.isDirectory p = true := by
  rw [makeDirectories, Path.ancestors, Path.climb] at h ⊢
  cases hparent : p.parent? with
  | none => exact .inl (by simp [hparent, makeChain])
  | some q =>
    right
    simp only [hparent, List.filter_cons, Option.isSome_some, if_true] at h ⊢
    rw [makeChain] at h ⊢
    split at h
    next hfirst => exact isDirectory_of_ensureDirectory hfirst
    next =>
      split at h
      next => cases h
      next =>
        split at h
        next hlast => exact isDirectory_of_ensureDirectory hlast
        next => cases h
    next => cases h

/-! ## Names below a directory -/

variable {name : String}

theorem step_of_isFileName (h : Path.IsFileName name) (l : Location) : step l name = l ++ [name] := by
  rw [step, if_neg (by simp [h.notVoid]), if_neg h.notUp]

/-- A path that may be followed has a directory that may be followed. -/
theorem refusal?_of_joinText (hempty : p.text ≠ "") (h : Path.IsFileName name)
    (hr : refusal? (p.joinText name) = none) : refusal? p = none := by
  obtain ⟨rest, hrest⟩ := Path.exists_text_joinText_eq p hempty h
  rw [refusal?, hrest] at hr
  rw [refusal?]
  split at hr
  next => cases hr
  next hnul =>
    split at hr
    next => cases hr
    next =>
      split at hr
      next => cases hr
      next hlong =>
        rw [String.utf8ByteSize_append] at hlong
        have hnul' : ¬ holdsNul p.text = true := fun hp => hnul <| by
          simp only [holdsNul, String.toList_append, List.contains_iff_mem, List.mem_append] at hp ⊢
          exact .inl hp
        rw [if_neg hnul', if_neg hempty, if_neg (by omega)]

/-- A name below a directory leads below where the directory leads. -/
theorem foldl_step_joinText (p : Path) (h : Path.IsFileName name) (l : Location) :
    (p.joinText name).pieces.foldl step l = p.pieces.foldl step l ++ [name] := by
  rcases Path.pieces_joinText_cases p h with hpieces | ⟨front, hfront, hpieces⟩
  · rw [hpieces, List.foldl_append, List.foldl_cons, List.foldl_nil, step_of_isFileName h]
  · have hvoid : ∀ m, step m "" = m := fun _ => rfl
    rw [hpieces, hfront, List.foldl_append, List.foldl_append, List.foldl_cons, List.foldl_nil,
      step_of_isFileName h, List.foldl_cons, List.foldl_nil, hvoid]

/-- A name below a directory is looked up in the directory. -/
theorem locate_joinText (d : Disk) (hempty : p.text ≠ "") (h : Path.IsFileName name)
    (hr : refusal? (p.joinText name) = none) :
    d.locate (p.joinText name) = d.locate p >>= fun l => d.walk l [name] := by
  have horigin : d.origin (p.joinText name) = d.origin p := by
    rw [origin, origin, Path.isAbsolute_joinText_eq p h]
  rw [locate, follow, hr, locate, follow, refusal?_of_joinText hempty h hr]
  dsimp only
  rw [horigin, ← walk_append]
  rcases Path.pieces_joinText_cases p h with hpieces | ⟨front, hfront, hpieces⟩
  · rw [hpieces]
  · -- the empty piece between the two only asks for a directory, as the name behind it does
    rw [hpieces, hfront, List.append_assoc, walk_append, walk_append]
    congr 1
    funext l
    have hstep : step l "" = l := rfl
    have hshort : ¬ greatestNameSize < "".utf8ByteSize := by decide
    cases hnode : d.node? l with
    | none => simp only [List.singleton_append, walk, hnode]
    | some n => cases n <;> simp only [List.singleton_append, walk, hnode, hstep, if_neg hshort]

/-- A name below a directory leads to that name below where the directory leads. -/
theorem exists_locate_of_locate_joinText (hempty : p.text ≠ "") (h : Path.IsFileName name)
    (hl : d.locate (p.joinText name) = .ok l) : ∃ m, d.locate p = .ok m ∧ l = m ++ [name] := by
  rw [locate_joinText d hempty h (locate_eq_ok_iff.1 hl).1] at hl
  obtain ⟨m, hm, hwalk⟩ := except_bind_eq_ok_iff.1 hl
  refine ⟨m, hm, ?_⟩
  rw [eq_foldl_step_of_walk hwalk, List.foldl_cons, List.foldl_nil, step_of_isFileName h]

/-- Where that is does not depend on the disk either. -/
theorem eq_append_of_locate_joinText (habsolute : p.isAbsolute = true) (h : Path.IsFileName name)
    (hl : d.locate (p.joinText name) = .ok l) : l = p.pieces.foldl step [] ++ [name] := by
  obtain ⟨m, hm, rfl⟩ := exists_locate_of_locate_joinText (Path.text_ne_empty habsolute) h hl
  rw [eq_foldl_step_of_locate habsolute hm]

theorem isDirectory_of_stat_joinText (habsolute : p.isAbsolute = true) (h : Path.IsFileName name)
    (hstat : d.stat (p.joinText name) = .ok n) : d.isDirectory p = true := by
  obtain ⟨l, hlocate, -⟩ := stat_eq_ok_iff.1 hstat
  rw [locate_joinText d (Path.text_ne_empty habsolute) h (locate_eq_ok_iff.1 hlocate).1] at hlocate
  obtain ⟨m, hm, hname⟩ := except_bind_eq_ok_iff.1 hlocate
  rw [walk] at hname
  split at hname
  next => cases hname
  next => cases hname
  next t ht => exact isDirectory_eq_true_iff.2 ⟨m, t, hm, ht⟩

theorem isDirectory_of_modified_joinText {t : Time} (habsolute : p.isAbsolute = true)
    (h : Path.IsFileName name) (hmodified : d.modified (p.joinText name) = .ok t) :
    d.isDirectory p = true := by
  rw [modified] at hmodified
  cases hstat : d.stat (p.joinText name) with
  | ok n => exact isDirectory_of_stat_joinText habsolute h hstat
  | error e =>
    rw [hstat] at hmodified
    cases hmodified

/-- Nothing is made where a name below the directory can be found. -/
theorem makeDirectories_of_modified {t : Time} (habsolute : p.isAbsolute = true)
    (h : Path.IsFileName name) (hmodified : d.modified (p.joinText name) = .ok t) :
    d.makeDirectories p = (.ok (), d) :=
  makeDirectories_of_isDirectory (isDirectory_of_modified_joinText habsolute h hmodified)

/-- An absolute path that is only missing may be followed. -/
theorem refusal?_eq_none_of_modified (habsolute : p.isAbsolute = true)
    (hmissing : d.modified p = .error .notFound) : refusal? p = none := by
  have hempty : p.text ≠ "" := Path.text_ne_empty habsolute
  cases hr : refusal? p with
  | none => rfl
  | some e =>
    have he : d.modified p = .error e := by
      rw [modified, stat, locate, follow, hr]
      rfl
    rw [hmissing] at he
    cases he
    rw [refusal?, if_neg hempty] at hr
    split at hr
    · cases hr
    · split at hr
      · cases hr
      · cases hr

/-- A path below one that may be followed may be followed, if its name is harmless and there is room. -/
theorem refusal?_joinText_eq_none (habsolute : p.isAbsolute = true) (h : Path.IsFileName name)
    (hp : holdsNul p.text = false) (hname : holdsNul name = false)
    (hsize : p.text.utf8ByteSize + name.utf8ByteSize < greatestPathSize) :
    refusal? (p.joinText name) = none := by
  have hnotNul : ∀ text, holdsNul text = false ↔ Char.ofNat 0 ∉ text.toList := by
    intro text
    rw [holdsNul, ← Bool.not_eq_true, List.contains_iff_mem]
  obtain ⟨rest, hrest, hnul, hlong⟩ : ∃ rest, (p.joinText name).text = p.text ++ rest ∧
      Char.ofNat 0 ∉ rest.toList ∧ rest.utf8ByteSize ≤ name.utf8ByteSize + 1 := by
    rw [hnotNul] at hname
    rcases Path.joinText_cases p (Path.text_ne_empty habsolute) h with ⟨cs, rfl, hjoin⟩ | hjoin
    · exact ⟨name, by rw [hjoin], hname, Nat.le_succ _⟩
    · have hslash : "/".utf8ByteSize = 1 := by decide
      refine ⟨"/" ++ name, by rw [hjoin, String.append_assoc], ?_, ?_⟩
      · simpa using hname
      · rw [String.utf8ByteSize_append]
        omega
  have hempty : p.text ++ rest ≠ "" := by
    intro hempty
    exact Path.text_ne_empty habsolute (String.append_eq_empty_iff.1 hempty).1
  rw [hnotNul] at hp
  have hnul' : holdsNul (p.text ++ rest) = false := by
    rw [hnotNul, String.toList_append, List.mem_append]
    exact fun hmem => hmem.elim hp hnul
  rw [refusal?, hrest, hnul', if_neg Bool.false_ne_true, if_neg hempty, String.utf8ByteSize_append,
    if_neg (by omega)]

/-- A directory that is there takes every name that is not too long. -/
theorem locate_joinText_of_directory (hempty : p.text ≠ "") (h : Path.IsFileName name)
    (hr : refusal? (p.joinText name) = none) (hl : d.locate p = .ok l) {t : Time}
    (hnode : d.node? l = some (.directory t)) : d.locate (p.joinText name) =
      if greatestNameSize < name.utf8ByteSize then .error .nameTooLong else .ok (l ++ [name]) := by
  have hstep := step_of_isFileName h l
  rw [locate_joinText d hempty h hr, hl]
  change d.walk l [name] = _
  simp only [walk, hnode, hstep]

/-- Nothing is found below what is not there. -/
theorem modified_joinText_of_node?_eq_none (habsolute : p.isAbsolute = true) (h : Path.IsFileName name)
    (hr : refusal? (p.joinText name) = none) (hl : d.locate p = .ok l) (hnode : d.node? l = none) :
    d.modified (p.joinText name) = .error .notFound := by
  have hlocate : d.locate (p.joinText name) = .error .notFound := by
    rw [locate_joinText d (Path.text_ne_empty habsolute) h hr, hl]
    change d.walk l [name] = _
    simp only [walk, hnode]
  rw [modified, stat, hlocate]
  rfl

theorem modified_joinText_of_tooLong (habsolute : p.isAbsolute = true) (h : Path.IsFileName name)
    (hr : refusal? (p.joinText name) = none) (hdirectory : d.isDirectory p = true)
    (hlong : greatestNameSize < name.utf8ByteSize) :
    d.modified (p.joinText name) = .error .nameTooLong := by
  obtain ⟨l, t, hl, hnode⟩ := isDirectory_eq_true_iff.1 hdirectory
  rw [modified, stat, locate_joinText_of_directory (Path.text_ne_empty habsolute) h hr hl hnode,
    if_pos hlong]
  rfl

/-- Below a directory that is there, a name can be looked up or is too long. -/
theorem modified_joinText_cases (habsolute : p.isAbsolute = true) (h : Path.IsFileName name)
    (hr : refusal? (p.joinText name) = none) (hdirectory : d.isDirectory p = true) :
    (∃ t, d.modified (p.joinText name) = .ok t) ∨
      d.modified (p.joinText name) = .error .notFound ∨
      (d.modified (p.joinText name) = .error .nameTooLong ∧ greatestNameSize < name.utf8ByteSize) := by
  by_cases hlong : greatestNameSize < name.utf8ByteSize
  · exact .inr (.inr ⟨modified_joinText_of_tooLong habsolute h hr hdirectory hlong, hlong⟩)
  obtain ⟨l, t, hl, hnode⟩ := isDirectory_eq_true_iff.1 hdirectory
  have hlocate := locate_joinText_of_directory (Path.text_ne_empty habsolute) h hr hl hnode
  rw [if_neg hlong] at hlocate
  cases hfound : d.node? (l ++ [name]) with
  | some n =>
    exact .inl ⟨n.modified, except_map_eq_ok_iff.2 ⟨n, stat_eq_ok_iff.2 ⟨_, hlocate, hfound⟩, rfl⟩⟩
  | none =>
    have hstat : d.stat (p.joinText name) = .error .notFound :=
      except_bind_eq_error_iff.2 (.inr ⟨_, hlocate, by simp only [hfound]⟩)
    exact .inr (.inl (by rw [modified, hstat]; rfl))

/-- Once the directory has been made, a name below it that was missing is still missing or too long, unless
something has come to light. -/
theorem modified_joinText_of_makeDirectories (habsolute : p.isAbsolute = true) (h : Path.IsFileName name)
    (hmade : (d.makeDirectories p).1 = .ok ()) (hmissing : d.modified (p.joinText name) = .error .notFound) :
    (∃ t, (d.makeDirectories p).2.modified (p.joinText name) = .ok t) ∨
      (d.makeDirectories p).2.modified (p.joinText name) = .error .notFound ∨
      ((d.makeDirectories p).2.modified (p.joinText name) = .error .nameTooLong ∧
        greatestNameSize < name.utf8ByteSize) := by
  rcases makeDirectories_cases hmade with hsame | hdirectory
  · rw [hsame]
    exact .inr (.inl hmissing)
  · exact modified_joinText_cases habsolute h
      (refusal?_eq_none_of_modified (Path.isAbsolute_joinText habsolute h) hmissing) hdirectory

end VariantBuild.Disk

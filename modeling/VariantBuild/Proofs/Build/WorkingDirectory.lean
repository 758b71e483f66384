import VariantBuild.Build
import VariantBuild.Proofs.Disk.Directories
import VariantBuild.Proofs.ObjectKey.Placement
/-!
# Objects seen from the root

A build looks at its objects from the directory that it was started in, and starts compilers and the final
tool in the root of the project. Both get the same text for an object. That names the same file if the cache
directory is absolute, as it is below an absolute root, or if the root is the directory that the build was
started in (`ObjectPlaces.same`). A source has no such trouble: it is checked below the root, and named as in
the manifest to a compiler that runs there.

A relative cache directory below any other root is a defect: the object that is checked is never the one
that is written and linked (`ObjectPlaces.apart`).
-/

namespace VariantBuild

/-! ## Processes in a directory -/

/-- The disk as a process sees it that is started in a directory. -/
def Disk.enter (d : Disk) (directory : Path) : Except SystemError Disk := do
  let l ← d.locate directory
  match d.node? l with
  | none => .error .notFound
  | some (.file _ _) => .error .notDirectory
  | some (.directory _) => .ok { d with here := l }

/-- Where an argument of a command leads, taken as a path, from the directory that it starts in. -/
def Command.locate (c : Command) (d : Disk) (argument : String) : Except SystemError Location := do
  (← d.enter c.directory).locate ⟨argument⟩

namespace Disk

variable {d d' : Disk} {l : Location} {p : Path} {name : String} {ps : List String}

@[simp] theorem walk_here (d : Disk) (m l : Location) (ps : List String) :
    walk { d with here := m } l ps = d.walk l ps := by
  induction ps generalizing l with
  | nil => rfl
  | cons p ps ih =>
    simp only [walk, ih]
    rfl

theorem exists_here_of_enter (h : d.enter p = .ok d') : ∃ l, d.locate p = .ok l ∧ d' = { d with here := l } := by
  obtain ⟨l, hl, hrest⟩ := except_bind_eq_ok_iff.1 h
  refine ⟨l, hl, ?_⟩
  split at hrest
  next => cases hrest
  next => cases hrest
  next => exact (Except.ok.inj hrest).symm

/-- An absolute path is the same from anywhere, and every path is the same from the same place. -/
theorem locate_of_enter (h : d.enter p = .ok d') {q : Path} (hq : q.isAbsolute = true ∨ d'.here = d.here) :
    d'.locate q = d.locate q := by
  obtain ⟨l, -, rfl⟩ := exists_here_of_enter h
  have horigin : origin { d with here := l } q = d.origin q := by
    rw [origin, origin]
    rcases hq with habsolute | hhere
    · rw [if_pos habsolute, if_pos habsolute]
    · rw [hhere]
  rw [locate, locate, follow, follow, walk_here, horigin]

/-- The working directory, entered by its short name, is where the process was. -/
theorem here_of_enter_here (h : d.enter ⟨"."⟩ = .ok d') : d'.here = d.here := by
  obtain ⟨l, hl, rfl⟩ := exists_here_of_enter h
  exact eq_foldl_step_of_walk (locate_eq_ok_iff.1 hl).2

/-- Without a piece that leads up, pieces lead as far down from anywhere. -/
theorem foldl_step_eq_append (h : ".." ∉ ps) (l : Location) :
    ps.foldl step l = l ++ ps.filter (!Path.isVoid ·) := by
  induction ps generalizing l with
  | nil => simp
  | cons p ps ih =>
    rw [List.mem_cons, not_or] at h
    rw [List.foldl_cons, ih h.2, step]
    by_cases hvoid : Path.isVoid p = true
    · simp [hvoid]
    · simp [hvoid, Ne.symm h.1]

/-- From two places a name below a relative directory leads to two places. -/
theorem locate_ne_of_enter (h : d.enter p = .ok d') {q : Path} (hq : q.isAbsolute = false)
    (hup : ".." ∉ q.pieces) (hhere : d'.here ≠ d.here) (hname : Path.IsFileName name)
    (hl : d.locate (q.joinText name) = .ok l) : d'.locate (q.joinText name) ≠ .ok l := by
  intro hl'
  obtain ⟨m, -, rfl⟩ := exists_here_of_enter h
  have hrelative : (q.joinText name).isAbsolute ≠ true := by
    rw [Path.isAbsolute_joinText_eq q hname, hq]
    exact Bool.false_ne_true
  have heq := eq_foldl_step_of_walk (locate_eq_ok_iff.1 hl).2
  have heq' := eq_foldl_step_of_walk (locate_eq_ok_iff.1 hl').2
  rw [origin, if_neg hrelative, foldl_step_joinText q hname, foldl_step_eq_append hup] at heq heq'
  rw [heq] at heq'
  exact hhere (List.append_cancel_right (List.append_cancel_right heq')).symm

end Disk

/-! ## The directories of a project -/

theorem Path.isAbsolute_join {p : Path} (h : p.isAbsolute = true) (q : Path) :
    (p.join q).isAbsolute = true := by
  have hempty := Path.text_ne_empty h
  have hhead : ∀ rest, isAbsolute ⟨p.text ++ rest⟩ = true := by
    intro rest
    rw [isAbsolute, beq_iff_eq] at h ⊢
    rw [String.toList_append, List.head?_append, h]
    rfl
  rw [join]
  split
  next hq => exact hq
  next =>
    split
    · exact hhead q.text
    · rw [String.append_assoc]
      exact hhead _

/-- A project has its directories by default or from a configuration. -/
def Project.LaidOut (p : Project) : Prop :=
  p.cacheDirectory = (Project.new p.root).cacheDirectory ∨
    ∃ c : Config, p.root = c.root ∧ p.cacheDirectory = c.cacheDirectory

/-- Objects are kept below the root, unless a configuration says where else. -/
theorem Project.LaidOut.isAbsolute {p : Project} (h : p.LaidOut) (hroot : p.root.isAbsolute = true) :
    p.cacheDirectory.isAbsolute = true := by
  rcases h with hnew | ⟨c, hc, hcache⟩
  · rw [hnew]
    exact Path.isAbsolute_join (Path.isAbsolute_join hroot _) _
  · rw [hc] at hroot
    rw [hcache, Config.cacheDirectory]
    split
    · exact Path.isAbsolute_join hroot _
    · exact Path.isAbsolute_join (Path.isAbsolute_join hroot _) _

/-! ## Three views of an object -/

/-- Where the object of a task is: for the staleness check on `d`, and for the compiler and the final tool,
which start in the root of the project and see `d'`. -/
structure Builder.ObjectPlaces (b : Builder) (f : FlagSet) (t : CompileTask) (link : Command) (d d' : Disk) :
    Prop where
  /-- It is checked in the directory that a build makes. -/
  below : ∃ name, Path.IsFileName name ∧ t.object = b.project.cacheDirectory.joinText name
  written : ["-c", "-o", t.object.text] <:+: ((b.compiler f).command f t).arguments
  linked : t.object.text ∈ link.arguments
  absolute : b.project.root.isAbsolute = true → b.project.cacheDirectory.isAbsolute = true
  here : b.project.root = ⟨"."⟩ → d'.here = d.here
  /-- The file that is checked is the one that is written and linked. -/
  same : b.project.cacheDirectory.isAbsolute = true ∨ d'.here = d.here →
    ∀ c ∈ [(b.compiler f).command f t, link], c.locate d t.object.text = d.locate t.object
  /-- The file that is checked is neither written nor linked. -/
  apart : b.project.cacheDirectory.isAbsolute = false → ".." ∉ b.project.cacheDirectory.pieces →
    d'.here ≠ d.here → ∀ l, d.locate t.object = .ok l →
      ∀ c ∈ [(b.compiler f).command f t, link], c.locate d t.object.text ≠ .ok l

theorem Linker.mem_arguments {l : Linker} {f : FlagSet} {endFlags : List String} {objects : List Path}
    {output o : Path} (ho : o ∈ objects) : o.text ∈ l.arguments f endFlags objects output := by
  have hmem : o.text ∈ objects.map (·.text) := List.mem_map_of_mem ho
  rw [arguments]
  split <;> simp [hmem]

/-- The object that is checked is the one that is written and linked, if the cache directory is absolute or the
root is the working directory; otherwise it is another. -/
theorem Builder.object_places (b : Builder) (hlaid : b.project.LaidOut) (cache : ObjectCache)
    (hcache : b.project.cache = .ok cache) (f : FlagSet) (t : CompileTask)
    (ht : t.object = cache.objectPath t.source f) (endFlags : List String) (objects : List Path)
    (hlinked : t.object ∈ objects) (output : Path) (d d' : Disk)
    (henter : d.enter b.project.root = .ok d') :
    b.ObjectPlaces f t (b.linker.command f endFlags objects output) d d' := by
  have hdirectory : cache.directory = b.project.cacheDirectory := by
    obtain ⟨k, -, hk⟩ := except_bind_eq_ok_iff.1 hcache
    cases hk
    rfl
  obtain ⟨name, hname, hobject⟩ := cache.exists_objectPath_eq t.source f
  rw [← ht, hdirectory] at hobject
  -- both commands start in the root, so both see the disk that was entered there
  have hview : ∀ c ∈ [(b.compiler f).command f t, b.linker.command f endFlags objects output],
      c.locate d t.object.text = d'.locate t.object := by
    intro c hc
    have hroot : c.directory = b.project.root := by
      rcases List.mem_pair.1 hc with rfl | rfl <;> rfl
    rw [Command.locate, hroot, henter]
    rfl
  exact {
    below := ⟨name, hname, hobject⟩
    written := ⟨_, _, rfl⟩
    linked := Linker.mem_arguments hlinked
    absolute := hlaid.isAbsolute
    here := fun hroot => Disk.here_of_enter_here (hroot ▸ henter)
    same := fun hsame c hc => by
      rw [hview c hc]
      refine Disk.locate_of_enter henter (hsame.imp_left fun habsolute => ?_)
      rw [hobject]
      exact Path.isAbsolute_joinText habsolute hname
    apart := fun hrelative hup hhere l hl c hc => by
      rw [hview c hc]
      rw [hobject] at hl ⊢
      exact Disk.locate_ne_of_enter henter hrelative hup hhere hname hl }

/-! ## A root below the working directory -/

namespace Builder.Nested

/-- A project at `sub`, seen from the directory above. -/
def builder : Builder :=
  ⟨.new ⟨"sub"⟩, .plain "native", .default⟩

def cache : ObjectCache :=
  ⟨builder.project.cacheDirectory, .default⟩

def flags : FlagSet :=
  ⟨["-O0"], "", "native", "gcc"⟩

/-- There are two places for objects, and the second is below the root once more. -/
def disk : Disk :=
  ⟨[([], .directory 0), (["w"], .directory 0), (["w", "sub"], .directory 0),
    (["w", "sub", "build"], .directory 0), (["w", "sub", "build", "objs"], .directory 0),
    (["w", "sub", "sub"], .directory 0), (["w", "sub", "sub", "build"], .directory 0),
    (["w", "sub", "sub", "build", "objs"], .directory 0)], ["w"], 0⟩

def task : CompileTask :=
  ⟨⟨"a.c"⟩, [], [], cache.objectPath ⟨"a.c"⟩ flags, [], .missingObject⟩

theorem enter_root : disk.enter builder.project.root = .ok { disk with here := ["w", "sub"] } :=
  except_bind_eq_ok_iff.2 ⟨["w", "sub"], by decide +kernel, rfl⟩

theorem locate_object :
    disk.locate task.object = .ok ["w", "sub", "build", "objs", "16g4etw-a-r0nri5xinhtu.o"] := by
  decide +kernel

theorem locate_written : ((builder.compiler flags).command flags task).locate disk task.object.text =
    .ok ["w", "sub", "sub", "build", "objs", "16g4etw-a-r0nri5xinhtu.o"] := by
  decide +kernel

end Builder.Nested

/-- For a root below the working directory the compiler writes below the root what is checked above it: two
files for one object. -/
theorem Builder.object_elsewhere :
    ¬ ∀ (b : Builder) (cache : ObjectCache) (f : FlagSet) (t : CompileTask) (d d' : Disk) (l : Location),
      b.project.LaidOut → b.project.cache = .ok cache → t.object = cache.objectPath t.source f →
      d.enter b.project.root = .ok d' → d.locate t.object = .ok l →
      ((b.compiler f).command f t).locate d t.object.text = .ok l := by
  intro h
  have hsame := h Nested.builder Nested.cache Nested.flags Nested.task Nested.disk _ _ (.inl rfl) rfl rfl
    Nested.enter_root Nested.locate_object
  rw [Nested.locate_written] at hsame
  exact absurd hsame (by decide)

/-- The same root through the law for all of them: neither the compiler nor the final tool sees the object
that is checked. -/
theorem Builder.nested_object_places :
    Nested.builder.project.LaidOut ∧ Nested.builder.project.cache = .ok Nested.cache ∧
    Nested.builder.ObjectPlaces Nested.flags Nested.task
      (Nested.builder.linker.command Nested.flags [] [Nested.task.object] ⟨"out"⟩)
      Nested.disk { Nested.disk with here := ["w", "sub"] } ∧
    Nested.builder.project.cacheDirectory.isAbsolute = false ∧
    ".." ∉ Nested.builder.project.cacheDirectory.pieces := by
  have hlaid : Nested.builder.project.LaidOut := .inl rfl
  refine ⟨hlaid, rfl, ?_, by decide +kernel, by decide +kernel⟩
  exact object_places _ hlaid Nested.cache rfl _ _ rfl [] _ List.mem_cons_self _ _ _ Nested.enter_root

end VariantBuild

import VariantBuild.Proofs.Disk.Shape
/-!
# What is read from a disk

Where a path leads depends only on the directories and on the one that relative paths start from, so two
disks with the same directories look up every path alike (`SameDirectories.locate_eq_ok_iff`). If their files
have the same contents as well, every path reads the same (`SameContents.readBytes_eq`), however old the files
are.
-/

namespace VariantBuild

/-- The bytes of a file. -/
def Node.contents? : Node → Option ByteArray
  | directory _ => none
  | file contents _ => some contents

theorem Node.isSome_contents? (n : Node) : n.contents?.isSome = n.isFile := by
  cases n <;> rfl

namespace Disk

/-- Files hold the same bytes, whatever their times. -/
def SameContents (d d' : Disk) : Prop :=
  ∀ l, (d'.node? l).map Node.contents? = (d.node? l).map Node.contents?

/-- The file at a location, with its time. -/
def file? (d : Disk) (l : Location) : Option (ByteArray × Time) :=
  match d.node? l with
  | some (.file contents t) => some (contents, t)
  | _ => none

/-- The contents of the file at a location. -/
def contents? (d : Disk) (l : Location) : Option ByteArray :=
  (d.node? l).bind Node.contents?

/-- The same directories, seen from the same one. -/
structure SameDirectories (d d' : Disk) : Prop where
  here : d'.here = d.here
  directory : ∀ l, (∃ t, d'.node? l = some (.directory t)) ↔ ∃ t, d.node? l = some (.directory t)

/-- Some paths read the same on two disks. -/
def AgreeOn (ps : List Path) (d d' : Disk) : Prop :=
  ∀ p ∈ ps, d'.readBytes p = d.readBytes p

variable {d d' d'' : Disk} {l : Location} {p : Path} {ps : List Path}

theorem AgreeOn.trans (h : AgreeOn ps d d') (h' : AgreeOn ps d' d'') : AgreeOn ps d d'' :=
  fun p hp => (h' p hp).trans (h p hp)

namespace SameDirectories

theorem refl (d : Disk) : d.SameDirectories d :=
  ⟨rfl, fun _ => .rfl⟩

theorem symm (h : d.SameDirectories d') : d'.SameDirectories d :=
  ⟨h.here.symm, fun l => (h.directory l).symm⟩

theorem trans (h : d.SameDirectories d') (h' : d'.SameDirectories d'') : d.SameDirectories d'' :=
  ⟨h'.here.trans h.here, fun l => (h'.directory l).trans (h.directory l)⟩

theorem locate_eq (h : d.SameDirectories d') (hl : d.locate p = .ok l) : d'.locate p = .ok l := by
  obtain ⟨hrefusal, hwalk⟩ := locate_eq_ok_iff.1 hl
  have horigin : d'.origin p = d.origin p := by rw [origin, origin, h.here]
  refine locate_eq_ok_iff.2 ⟨hrefusal, walk_eq_of_directories (fun m t hm => ?_) (horigin.symm ▸ hwalk)⟩
  exact (h.directory m).2 ⟨t, hm⟩

theorem locate_eq_ok_iff (h : d.SameDirectories d') : d'.locate p = .ok l ↔ d.locate p = .ok l :=
  ⟨h.symm.locate_eq, h.locate_eq⟩

end SameDirectories

theorem contents?_eq_map_file? (d : Disk) (l : Location) : d.contents? l = (d.file? l).map (·.1) := by
  rw [contents?, file?]
  rcases d.node? l with _ | _ | _ <;> rfl

/-- Reading a path reads the file where it leads. -/
theorem readBytes_of_locate (h : d.locate p = .ok l) : d.readBytes p =
    match d.node? l with
    | some (.file contents _) => .ok contents
    | some (.directory _) => .error .isDirectory
    | none => .error .notFound := by
  simp only [readBytes, stat, h, bind, Except.bind]
  rcases d.node? l with _ | _ | _ <;> rfl

theorem contents?_of_locate (h : d.locate p = .ok l) : d.contents? l = (d.readBytes p).toOption := by
  rw [contents?, readBytes_of_locate h]
  rcases d.node? l with _ | _ | _ <;> rfl

/-- Disks with the same directories differ in their files only. -/
theorem SameDirectories.sameContents (h : d.SameDirectories d')
    (hcontents : ∀ l, d'.contents? l = d.contents? l) : d.SameContents d' := by
  intro l
  have hdirectory := h.directory l
  have hfile := hcontents l
  rw [contents?, contents?] at hfile
  rcases hn : d.node? l with _ | _ | _ <;> rcases hn' : d'.node? l with _ | _ | _ <;>
    simp_all [Node.contents?]

namespace SameContents

theorem sameShape (h : d.SameContents d') (hhere : d'.here = d.here) : d.SameShape d' := by
  refine ⟨hhere, fun l => ?_⟩
  have hsome := congrArg (Option.map Option.isSome) (h l)
  simpa only [Option.map_map, Function.comp_def, Node.isSome_contents?] using hsome

/-- Every path reads the same. -/
theorem readBytes_eq (h : d.SameContents d') (hhere : d'.here = d.here) (p : Path) :
    d'.readBytes p = d.readBytes p := by
  have hlocate := (h.sameShape hhere).locate_eq p
  cases hl : d.locate p with
  | error e =>
    rw [hl] at hlocate
    simp only [readBytes, stat, hl, hlocate, bind, Except.bind]
  | ok l =>
    rw [hl] at hlocate
    have hnode := h l
    rw [readBytes_of_locate hl, readBytes_of_locate hlocate]
    rcases hn : d.node? l with _ | _ | _ <;> rcases hn' : d'.node? l with _ | _ | _ <;>
      simp_all [Node.contents?]

end SameContents

/-! ## After writing a file -/

namespace Writes

variable {m : Location} {t : Time}

/-- If the file stands in a directory, no directory comes or goes. -/
theorem sameDirectories (h : Writes l t d d') (hparent : ∃ u, d.node? l.dropLast = some (.directory u)) :
    d.SameDirectories d' := by
  refine ⟨h.here, fun m => ⟨fun ⟨u, hu⟩ => ?_, fun ⟨u, hu⟩ => h.directory hu⟩⟩
  by_cases hm : m = l.dropLast
  · rw [hm]
    exact hparent
  · have hne : m ≠ l := by
      rintro rfl
      obtain ⟨contents, hfile⟩ := h.file
      rw [hu] at hfile
      cases hfile
    exact ⟨u, (h.others m hne hm).symm.trans hu⟩

/-- Every other file is kept. -/
theorem file?_eq (h : Writes l t d d') (hparent : ∃ u, d.node? l.dropLast = some (.directory u))
    (hm : m ≠ l) : d'.file? m = d.file? m := by
  by_cases hdir : m = l.dropLast
  · obtain ⟨u, hu⟩ := hparent
    obtain ⟨u', hu'⟩ := h.parent u hu
    rw [file?, file?, hdir, hu, hu']
  · rw [file?, file?, h.others m hm hdir]

/-- What a path reads elsewhere is kept. -/
theorem readBytes_eq (h : Writes l t d d') (hlocate : d.locate p = .ok m) (hm : m ≠ l)
    (hparent : m ≠ l.dropLast) : d'.readBytes p = d.readBytes p := by
  rw [readBytes_of_locate hlocate, readBytes_of_locate (h.locate_eq hlocate), h.others m hm hparent]

end Writes

end Disk

end VariantBuild

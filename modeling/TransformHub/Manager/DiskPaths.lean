import Mathlib.Data.Nat.Notation

/-!
# The paths of the disk storage

`DiskClient` resolves what the requests of a `DiskProxy` name.
-/

namespace TransformHub.Manager.DiskPaths

abbrev Path := List (List Char)

def enter (dir : Path) (segment : List Char) : Path :=
  if segment = [] ∨ segment = ['.'] then dir
  else if segment = ['.', '.'] then dir.dropLast
  else dir ++ [segment]

/-- A text that names a path, from a directory. -/
def walk (dir : Path) (text : List Char) : Path :=
  (text.splitOn '/').foldl enter (if text.head? = some '/' then [] else dir)

/-- `resolve(path, location)`, from the working directory. -/
def resolve (cwd : Path) (path location : List Char) : Path := walk (walk cwd path) location

inductive Access
  | read (file : Path)
  | makeDirectoryFor (file : Path)
  | write (file : Path)
  | remove (file : Path)

def Access.file : Access → Path
  | read file => file
  | makeDirectoryFor file => file
  | write file => file
  | remove file => file

/-- What decides about a request besides its parameters. -/
structure Disk where
  /-- `stat` of a path does not throw -/
  present : Path → Bool
  /-- nor does that of the directory of a location -/
  directory : List Char → Bool
  /-- the package that is put is identified, and there is room for it -/
  accepts : Bool

structure DiskProxy where
  cwd : Path
  bucket : List Char
  id : List Char

def metadata (location : List Char) : List Char := location ++ ".metadata".toList

namespace DiskProxy

variable (p : DiskProxy) (disk : Disk)

def getObject (location : List Char) : List Access :=
  let file := resolve p.cwd p.bucket location
  if disk.present file then [.read file] else []

/-- `putObject` with metadata. -/
def putObject (location : List Char) : List Access :=
  let file := resolve p.cwd p.bucket location
  (if disk.directory location then [] else [.makeDirectoryFor file]) ++
    [.write file, .write (resolve p.cwd p.bucket (metadata location))]

def removeObject (location : List Char) : List Access :=
  let file := resolve p.cwd p.bucket location
  let metadataFile := resolve p.cwd p.bucket (metadata location)
  (if disk.present metadataFile then [.remove metadataFile] else []) ++
    if disk.present file then [.remove file] else []

/-- The requests, with the parameters that the router hands over. -/
inductive Request
  | get (directory : List Char) (filename : Option (List Char))
  /-- with the id that is generated -/
  | put (filename : Option (List Char)) (fileId : List Char)
  | delete (filename : List Char)

def Request.filename : Request → List Char
  | get directory filename => if filename.getD [] = [] then directory else filename.getD []
  | put filename fileId =>
    if filename.getD [] = [] then fileId ++ ".tar.gz".toList else filename.getD []
  | delete filename => filename

def location (filename : List Char) : List Char := p.id ++ '/' :: filename

/-- What a request makes `DiskClient` do, besides the saving of the index by the proxy itself. -/
def accesses (r : Request) : List Access :=
  match r with
  | .get _ _ => p.getObject disk (p.location r.filename)
  | .put _ _ => if disk.accepts then p.putObject disk (p.location r.filename) else []
  | .delete _ => p.removeObject disk (p.location r.filename)

def directory : Path := resolve p.cwd p.bucket (p.location [])

def indexFile : Path := resolve p.cwd p.bucket (p.location "index.json".toList)

/-- Whatever is on the disk, the files of a request are below the directory, and not the index. -/
def Confines (r : Request) : Prop :=
  ∀ disk, ∀ a ∈ p.accesses disk r,
    (∃ tail, tail ≠ [] ∧ a.file = p.directory ++ tail) ∧ a.file ≠ p.indexFile

end DiskProxy

/-! ## Names -/

/-- One segment of a name: how many levels it has gone up, and what it has gone down since. -/
def descend (at' : ℕ × Path) (segment : List Char) : ℕ × Path :=
  if segment = [] ∨ segment = ['.'] then at'
  else if segment = ['.', '.'] then if at'.2 = [] then (at'.1 + 1, []) else (at'.1, at'.2.dropLast)
  else (at'.1, at'.2 ++ [segment])

/-- A name without dot segments. -/
def normalized (name : List Char) : ℕ × Path := (name.splitOn '/').foldl descend (0, [])

/-- The name goes down, also where it has gone up before, and not only to the index. -/
def StaysBelow (dir : Path) (name : List Char) : Prop :=
  ∃ tail, tail ≠ [] ∧ tail ≠ ["index.json".toList] ∧
    (normalized name).2 = dir.drop (dir.length - (normalized name).1) ++ tail

/-! ## What a location resolves to -/

theorem enter_eq_descend (dir : Path) (at' : ℕ × Path) (segment : List Char) :
    enter (dir.take (dir.length - at'.1) ++ at'.2) segment =
      dir.take (dir.length - (descend at' segment).1) ++ (descend at' segment).2 := by
  obtain ⟨k, rest⟩ := at'
  rw [enter, descend]
  split
  · rfl
  · split
    · by_cases hrest : rest = []
      · subst hrest
        simp only [if_pos, List.append_nil, List.dropLast_eq_take, List.take_take, List.length_take]
        congr 1
        omega
      · simp only [if_neg hrest]
        exact List.dropLast_append_of_ne_nil hrest
    · exact List.append_assoc _ _ _

theorem foldl_enter (dir : Path) (name : List Char) :
    (name.splitOn '/').foldl enter dir =
      dir.take (dir.length - (normalized name).1) ++ (normalized name).2 := by
  have hfold : ∀ (segments : Path) at', segments.foldl enter (dir.take (dir.length - at'.1) ++ at'.2) =
      dir.take (dir.length - (segments.foldl descend at').1) ++
        (segments.foldl descend at').2 := by
    intro segments
    induction segments with
    | nil => exact fun _ => rfl
    | cons segment segments ih =>
      intro at'
      rw [List.foldl_cons, enter_eq_descend, ih]
      rfl
  simpa [normalized] using hfold (name.splitOn '/') (0, [])

theorem splitOn_append (name : List Char) {suffix : List Char} (h : '/' ∉ suffix) :
    ∃ init last, name.splitOn '/' = init ++ [last] ∧
      (name ++ suffix).splitOn '/' = init ++ [last ++ suffix] := by
  by_cases hname : '/' ∈ name
  · obtain ⟨after, before, hsplit, hafter⟩ :=
      List.eq_append_cons_of_mem (List.mem_reverse.mpr hname)
    have hname : name = before.reverse ++ '/' :: after.reverse := by
      rw [← List.reverse_reverse name, hsplit]
      simp
    have hafter : '/' ∉ after.reverse := by simpa using hafter
    have hrest : '/' ∉ after.reverse ++ suffix := by simp [h] at hafter ⊢; exact hafter
    refine ⟨before.reverse.splitOn '/', after.reverse, ?_, ?_⟩
    · rw [hname, List.splitOn_append_cons_self, List.splitOn_eq_singleton hafter]
    · rw [hname, List.append_assoc, List.cons_append, List.splitOn_append_cons_self,
        List.splitOn_eq_singleton hrest]
  · exact ⟨[], name, List.splitOn_eq_singleton hname,
      List.splitOn_eq_singleton (by simp [hname, h])⟩

namespace DiskProxy

variable (p : DiskProxy)

theorem resolve_location (name : List Char) :
    resolve p.cwd p.bucket (p.location name) = (name.splitOn '/').foldl enter p.directory := by
  have hhead : (p.id ++ '/' :: name).head? = (p.id ++ ['/']).head? := by cases p.id <;> rfl
  have hwalk : ∀ dir, walk dir (p.id ++ '/' :: name) =
      (name.splitOn '/').foldl enter (walk dir (p.id ++ ['/'])) := by
    intro dir
    have hid : (p.id ++ ['/']).splitOn '/' = p.id.splitOn '/' ++ [[]] :=
      List.splitOn_append_cons_self _ _
    rw [walk, walk, hhead, hid, List.splitOn_append_cons_self, List.foldl_append,
      List.foldl_append]
    rfl
  exact hwalk _

theorem indexFile_eq : p.indexFile = p.directory ++ ["index.json".toList] := by
  rw [indexFile, resolve_location]
  rfl

theorem below_iff {name : List Char} :
    (∃ tail, tail ≠ [] ∧ resolve p.cwd p.bucket (p.location name) = p.directory ++ tail) ∧
      resolve p.cwd p.bucket (p.location name) ≠ p.indexFile ↔ StaysBelow p.directory name := by
  rw [resolve_location, foldl_enter, indexFile_eq]
  have hsame : ∀ tail : Path,
      p.directory.take (p.directory.length - (normalized name).1) ++ (normalized name).2 =
        p.directory ++ tail ↔ (normalized name).2 =
          p.directory.drop (p.directory.length - (normalized name).1) ++ tail := by
    intro tail
    generalize p.directory.length - (normalized name).1 = n
    have hparts : p.directory ++ tail =
        p.directory.take n ++ (p.directory.drop n ++ tail) := by
      rw [← List.append_assoc, List.take_append_drop]
    rw [hparts, List.append_right_inj]
  constructor
  · rintro ⟨⟨tail, hne, htail⟩, hindex⟩
    refine ⟨tail, hne, ?_, (hsame tail).mp htail⟩
    rintro rfl
    exact hindex htail
  · rintro ⟨tail, hne, hindex, htail⟩
    have htail := (hsame tail).mpr htail
    refine ⟨⟨tail, hne, htail⟩, fun heq => hindex ?_⟩
    rw [htail] at heq
    exact List.append_cancel_left heq

theorem metadata_below {name : List Char}
    (h : ∃ tail, tail ≠ [] ∧ resolve p.cwd p.bucket (p.location name) = p.directory ++ tail) :
    (∃ tail, tail ≠ [] ∧
      resolve p.cwd p.bucket (metadata (p.location name)) = p.directory ++ tail) ∧
      resolve p.cwd p.bucket (metadata (p.location name)) ≠ p.indexFile := by
  have hlocation : metadata (p.location name) = p.location (name ++ ".metadata".toList) := by
    simp [metadata, location]
  obtain ⟨init, last, hname, hmetadata⟩ :=
    splitOn_append name (show '/' ∉ ".metadata".toList by decide)
  obtain ⟨tail, hne, htail⟩ := h
  rw [resolve_location, hname, List.foldl_append] at htail
  rw [hlocation, resolve_location, hmetadata, List.foldl_append, indexFile_eq]
  generalize init.foldl enter p.directory = dir at htail ⊢
  have hlong : (last ++ ".metadata".toList).length = last.length + 9 := by simp
  have henter : [last ++ ".metadata".toList].foldl enter dir =
      dir ++ [last ++ ".metadata".toList] := by
    rw [List.foldl_cons, List.foldl_nil, enter, if_neg, if_neg]
    · intro heq
      rw [heq] at hlong
      simp at hlong
    · rintro (heq | heq) <;> rw [heq] at hlong <;> simp at hlong
  have hdir : ∃ more, dir = p.directory ++ more := by
    rw [List.foldl_cons, List.foldl_nil, enter] at htail
    split at htail
    · exact ⟨tail, htail⟩
    · split at htail
      · exact (List.prefix_append _ _).trans (htail ▸ List.dropLast_prefix dir) |>.imp
          fun more hmore => hmore.symm
      · refine ⟨tail.dropLast, ?_⟩
        have hlast := congrArg List.dropLast htail
        rwa [List.dropLast_concat, List.dropLast_append_of_ne_nil hne] at hlast
  obtain ⟨more, rfl⟩ := hdir
  rw [henter, List.append_assoc]
  refine ⟨⟨more ++ [last ++ ".metadata".toList], by simp, rfl⟩, fun heq => ?_⟩
  have hlast := congrArg List.getLast? (List.append_cancel_left heq)
  rw [List.getLast?_concat, List.getLast?_singleton, Option.some.injEq] at hlast
  have hend := congrArg List.getLast? hlast
  simp at hend

/-- The files of a request stay in the directory of the proxy, and off its index, exactly if the
filename does. -/
theorem confines_iff_staysBelow (r : Request) :
    p.Confines r ↔ StaysBelow p.directory r.filename := by
  rw [← below_iff]
  constructor
  · intro h
    -- on a disk with every file, and with room for a package, the request comes to its file
    have hfile : ∃ a ∈ p.accesses ⟨fun _ => true, fun _ => true, true⟩ r,
        a.file = resolve p.cwd p.bucket (p.location r.filename) := by
      cases r with
      | get directory filename | put filename fileId => exact ⟨_, List.mem_cons_self, rfl⟩
      | delete filename => exact ⟨_, List.mem_append_right _ List.mem_cons_self, rfl⟩
    obtain ⟨a, ha, heq⟩ := hfile
    rw [← heq]
    exact h _ a ha
  · intro h disk a ha
    have hmetadata := p.metadata_below h.1
    cases r with
    | get directory filename =>
      rw [accesses, getObject] at ha
      split at ha
      · cases List.mem_singleton.mp ha
        exact h
      · cases ha
    | put filename fileId =>
      rw [accesses, putObject] at ha
      split at ha
      · rcases List.mem_append.mp ha with ha | ha
        · split at ha
          · cases ha
          · cases List.mem_singleton.mp ha
            exact h
        · rcases List.mem_cons.mp ha with rfl | ha
          · exact h
          · cases List.mem_singleton.mp ha
            exact hmetadata
      · cases ha
    | delete filename =>
      rw [accesses, removeObject] at ha
      rcases List.mem_append.mp ha with ha | ha <;> split at ha
      · cases List.mem_singleton.mp ha
        exact hmetadata
      · cases ha
      · cases List.mem_singleton.mp ha
        exact h
      · cases ha

/-- Deleting `index.json` removes the index of the proxy. -/
theorem deleteIndex_not_confines :
    ¬ (DiskProxy.mk [] "/bucket".toList "manager".toList).Confines (.delete "index.json".toList) := by
  intro h
  apply (h ⟨fun _ => true, fun _ => true, true⟩ _ (List.mem_append_right _ List.mem_cons_self)).2
  rfl

end DiskProxy

end TransformHub.Manager.DiskPaths

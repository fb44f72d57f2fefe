import Mathlib.Algebra.GroupWithZero.Nat
import TransformHub.Lib.OrderedMap
import TransformHub.Lib.Transition

/-!
# The storage routers of the Manager

`DiskProxy` and `S3Proxy`: packages are stored under their filenames, and the index of the stored
sequences, kept in memory, is written to `index.json` next to them.
-/

namespace TransformHub.Manager.StorageRouters

/-! ## The store -/

inductive StoreKind where
  | disk
  | s3

structure SequenceInfo where
  id : String
  packageSize : ℕ
  filename : String
  fileId : String
deriving DecidableEq

structure SequenceIndex where
  sequences : List SequenceInfo
  size : ℕ
deriving DecidableEq

inductive Content where
  | package (id : String)
  /-- the file that a disk keeps next to a package -/
  | metadata (id : String)
  | index (index : SequenceIndex)

/-- What is stored in the folder of the Manager. -/
abbrev Files := OrderedMap String Content

def indexName : String := "index.json"

def metadataName (name : String) : String := name ++ ".metadata"

namespace Files

variable (files : Files)

def hasPackage (name : String) : Bool :=
  match files.get? name with
  | some (.package _) => true
  | _ => false

/-- `putObject` of a package. -/
def putObject (kind : StoreKind) (name id : String) : Files :=
  match kind with
  | .disk => (files.set name (.package id)).set (metadataName name) (.metadata id)
  | .s3 => files.set name (.package id)

/-- `removeObject`. A disk looks for the object, once it has removed the metadata. -/
def removeObject (kind : StoreKind) (name : String) : Files × Bool :=
  match kind with
  | .disk => ((files.delete (metadataName name)).delete name, files.has name)
  | .s3 => (files.delete name, true)

end Files

/-! ## The proxy -/

structure ProxyConfig where
  kind : StoreKind
  bucketLimit : ℕ
  /-- `JSON.stringify(index).length` -/
  indexLength : SequenceIndex → ℕ

/-- What a request waits for. The effect of what was asked of the store is kept with it. -/
inductive Operation where
  /-- the package of an upload is unpacked and identified -/
  | identifying (filename fileId : String)
  | putting (sequence : SequenceInfo) (stored : Bool)
  | removing (filename : String) (removed : Option Bool)
  /-- the loop of `clearIndex`: what could not be removed, and what is left -/
  | clearing (results items : List SequenceInfo) (removed : Option Bool)
  | saving (write : ℕ)
  /-- the time before the index is written again -/
  | waiting
  | done
deriving DecidableEq

/-- A `putObject` of the index. -/
structure IndexWrite where
  index : SequenceIndex
  landed : Bool

inductive SaveOutcome where
  | saved
  | noSuchBucket
  /-- any other error, or five seconds -/
  | failed

structure StorageProxy where
  files : Files
  index : SequenceIndex
  operations : List Operation
  writes : List IndexWrite

inductive Action where
  /-- an upload under a filename, which may be empty -/
  | upload (filename fileId : String)
  | delete (filename : String)
  | clearIndex
  /-- the package is identified; none if it is not complete or this fails -/
  | identified (k : ℕ) (size : Option ℕ)
  /-- what an operation has asked of the store takes effect -/
  | takesEffect (k : ℕ)
  /-- a disk has done only a part of it -/
  | partlyTakesEffect (k : ℕ)
  /-- what an operation has asked of the store settles -/
  | settles (k : ℕ) (ok : Bool)
  /-- a write of the index takes effect -/
  | lands (w : ℕ)
  | saveSettles (k : ℕ) (outcome : SaveOutcome)
  /-- the index is written again -/
  | retries (k : ℕ)

namespace StorageProxy

/-- An empty folder, when the index has been loaded. -/
def new : StorageProxy where
  files := OrderedMap.empty.set indexName (.index ⟨[], 0⟩)
  index := ⟨[], 0⟩
  operations := []
  writes := []

variable (s : StorageProxy)

def setOperation (k : ℕ) (operation : Operation) : StorageProxy :=
  { s with operations := s.operations.set k operation }

/-- The size that `saveIndex` computes. -/
def indexSize (kind : StoreKind) (sequences : List SequenceInfo) : ℕ :=
  match kind with
  | .disk => sequences.foldl (fun p c => p + c.packageSize) 0
  -- `p || 0 + (c.packageSize || 0)`
  | .s3 => sequences.foldl (fun p c => if p ≠ 0 then p else 0 + c.packageSize) 0

/-- One turn of the loop of `saveIndex`, up to its await. -/
def writeIndex (k : ℕ) : StorageProxy :=
  { s.setOperation k (.saving s.writes.length) with writes := s.writes ++ [⟨s.index, false⟩] }

/-- The index changes, and `saveIndex` is called. -/
def saveSequences (kind : StoreKind) (k : ℕ) (sequences : List SequenceInfo) : StorageProxy :=
  { s with index := ⟨sequences, indexSize kind sequences⟩ }.writeIndex k

/-- A write of the index takes effect. -/
def land (w : ℕ) : StorageProxy :=
  match s.writes[w]? with
  | none => s
  | some write =>
    if write.landed then s
    else
      { s with
        files := s.files.set indexName (.index write.index)
        writes := s.writes.set w { write with landed := true } }

/-- What an operation has asked of the store takes effect, if it has not. -/
def effect (kind : StoreKind) (k : ℕ) : StorageProxy :=
  match s.operations[k]? with
  | some (.putting sequence false) =>
    { s.setOperation k (.putting sequence true) with
      files := s.files.putObject kind sequence.filename sequence.id }
  | some (.removing filename none) =>
    { s.setOperation k (.removing filename (some (s.files.removeObject kind filename).2)) with
      files := (s.files.removeObject kind filename).1 }
  | some (.clearing results (item :: items) none) =>
    { s.setOperation k
        (.clearing results (item :: items) (some (s.files.removeObject kind item.id).2)) with
      files := (s.files.removeObject kind item.id).1 }
  | _ => s

/-- A disk has written the package without its metadata, or removed the metadata without the
package. -/
def partEffect (kind : StoreKind) (k : ℕ) : StorageProxy :=
  match kind, s.operations[k]? with
  | .disk, some (.putting sequence false) =>
    { s with files := s.files.set sequence.filename (.package sequence.id) }
  | .disk, some (.removing filename none) =>
    { s with files := s.files.delete (metadataName filename) }
  | .disk, some (.clearing _ (item :: _) none) =>
    { s with files := s.files.delete (metadataName item.id) }
  | _, _ => s

def identified (config : ProxyConfig) (k : ℕ) (size : Option ℕ) : StorageProxy :=
  match s.operations[k]?, size with
  | some (.identifying _ _), none => s.setOperation k .done
  | some (.identifying filename fileId), some size =>
    if config.indexLength s.index + s.index.size + size > config.bucketLimit then
      s.setOperation k .done
    else s.setOperation k (.putting ⟨fileId, size, filename, fileId⟩ false)
  | _, _ => s

/-- The handler goes on once the store has done what it was asked, or has failed. -/
def goOn (kind : StoreKind) (k : ℕ) (ok : Bool) : StorageProxy :=
  match s.operations[k]? with
  | some (.putting sequence _) =>
    if ok then s.saveSequences kind k (s.index.sequences ++ [sequence])
    else s.setOperation k .done
  | some (.removing filename removed) =>
    if ok && removed = some true then
      let sequences := s.index.sequences.filter fun sequence =>
        sequence.filename ≠ filename && sequence.fileId ≠ filename
      if s.index.sequences.length ≠ sequences.length then s.saveSequences kind k sequences
      else { s.setOperation k .done with index := { s.index with sequences } }
    else s.setOperation k .done
  | some (.clearing results (item :: items) removed) =>
    if ok && removed = some true then s.setOperation k (.clearing results items none)
    else s.setOperation k (.clearing (results ++ [item]) items none)
  | some (.clearing results [] _) => s.saveSequences kind k results
  | _ => s

/-- What an operation has asked of the store settles; it does not succeed without its effect. -/
def settles (kind : StoreKind) (k : ℕ) (ok : Bool) : StorageProxy :=
  if ok then (s.effect kind k).goOn kind k true else s.goOn kind k false

def saveSettles (k : ℕ) (outcome : SaveOutcome) : StorageProxy :=
  match s.operations[k]?, outcome with
  | some (.saving w), .saved => (s.land w).setOperation k .done
  | some (.saving _), .noSuchBucket => s.setOperation k .done
  | some (.saving _), .failed => s.setOperation k .waiting
  | _, _ => s

def retries (k : ℕ) : StorageProxy :=
  match s.operations[k]? with
  | some .waiting => s.writeIndex k
  | _ => s

def uploadName (filename fileId : String) : String :=
  if filename = "" then fileId ++ ".tar.gz" else filename

def next (config : ProxyConfig) : Action → StorageProxy
  | .upload filename fileId =>
    { s with operations := s.operations ++ [.identifying (uploadName filename fileId) fileId] }
  | .delete filename => { s with operations := s.operations ++ [.removing filename none] }
  | .clearIndex => { s with operations := s.operations ++ [.clearing [] s.index.sequences none] }
  | .identified k size => s.identified config k size
  | .takesEffect k => s.effect config.kind k
  | .partlyTakesEffect k => s.partEffect config.kind k
  | .settles k ok => s.settles config.kind k ok
  | .lands w => s.land w
  | .saveSettles k outcome => s.saveSettles k outcome
  | .retries k => s.retries k

end StorageProxy

end TransformHub.Manager.StorageRouters

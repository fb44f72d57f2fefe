import Mathlib.Data.List.TakeWhile
import TransformHub.Host.InstancesRegistry
import TransformHub.Lib.Lines

/-!
# The paths that instances expose

`rpc-path.ts`, and `getByExposePath` of `InstancesStore`.
-/

namespace TransformHub.Host.Instances

abbrev RpcText := List Char

/-! ## `rpc-path.ts` -/

def normalizedRpcPath (rpcPath : RpcText) : RpcText :=
  if rpcPath.head? = some '/' then rpcPath else '/' :: rpcPath

/-- A path that is exposed ends where the target does, or before one of these. -/
def isBoundary : Option Char → Bool
  | none => true
  | some c => c = '/' || c = '?' || c = '#'

def matchesRpcExposePath (rpcPath : RpcText) (exposePath : Option RpcText) : Bool :=
  match exposePath with
  | none | some [] => false
  | some exposePath =>
    let normalized := normalizedRpcPath rpcPath
    if exposePath = ['/'] then normalized.head? = some '/'
    else if exposePath.isPrefixOf normalized then isBoundary normalized[exposePath.length]?
    else false

def orRoot (text : RpcText) : RpcText := if text = [] then ['/'] else text

def stripRpcExposePath (rpcPath : RpcText) (exposePath : Option RpcText) : RpcText :=
  let normalized := normalizedRpcPath rpcPath
  if exposePath = some ['/'] then orRoot normalized
  else if matchesRpcExposePath normalized exposePath then
    let stripped := orRoot (normalized.drop (exposePath.getD []).length)
    if stripped.head? = some '?' then '/' :: stripped else stripped
  else orRoot normalized

/-! ## `getByExposePath` -/

namespace InstancesRegistry

variable (s : InstancesRegistry)

/-- The entry that the request goes to: of those that match, the first one after sorting. -/
def entryByExposePath (exposePath : RpcText) : Option (String × List String) :=
  ((s.exposePathMap.entries.filter fun e => matchesRpcExposePath exposePath (some e.1.toList)).mergeSort
    fun left right => decide (right.1.toList.length ≤ left.1.toList.length)).head?

def getByExposePath (exposePath : RpcText) : List ℕ :=
  match s.entryByExposePath exposePath with
  | none => []
  | some (_, set) => set.filterMap s.get?

end InstancesRegistry

/-! ## Targets and segments -/

def isDelimiter (c : Char) : Bool := c = '?' || c = '#'

/-- The path of a target: what comes before its query and its fragment. -/
def pathOf (target : RpcText) : RpcText := target.takeWhile fun c => !isDelimiter c

def suffixOf (target : RpcText) : RpcText := target.dropWhile fun c => !isDelimiter c

def queryOf (target : RpcText) : RpcText := (suffixOf target).takeWhile (· ≠ '#')

def segments (path : RpcText) : List RpcText :=
  let (segments, rest) := Lines.lines '/' path.tail
  if rest = [] then segments else segments ++ [rest]

/-- It begins with a slash, and has neither a query nor a fragment. -/
def IsPath (path : RpcText) : Prop := path.head? = some '/' ∧ ∀ c ∈ path, isDelimiter c = false

/-- `exposePath` is a path, and the target's path begins with its segments. -/
def SegmentPrefix (exposePath target : RpcText) : Prop :=
  IsPath exposePath ∧ segments exposePath <+: segments (pathOf target)

/-- Appended to the expose path, the target is the original one. -/
structure Denotes (target exposePath original : RpcText) : Prop where
  slash : target.head? = some '/'
  path : segments exposePath ++ segments (pathOf target) = segments (pathOf original)
  query : queryOf target = queryOf original

end TransformHub.Host.Instances

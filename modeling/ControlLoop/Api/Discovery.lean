import ControlLoop.Api.Client
/-!
# What a server serves

A server lists its groups, and for each version of a group the kinds it serves. Of a group only the
kinds of its recommended version count: the one it prefers, or else the most stable one.
-/
namespace ControlLoop.Api

/-! ## Versions -/

/-- How far a version has come. -/
inductive Stage where
  | irregular
  | alpha
  | beta
  | stable
  deriving DecidableEq, Repr

def Stage.rank : Stage → Nat
  | irregular => 0
  | alpha => 1
  | beta => 2
  | stable => 3

/-- What a version name tells about its place among others. -/
structure VersionRank where
  stage : Stage
  major : Nat := 0
  minor : Option Nat := none
  deriving DecidableEq, Repr

namespace VersionRank

/-- A number of 32 bits, if the text is one. -/
def word? (cs : List Char) : Option Nat := (Text.readNat Text.word32Max (String.ofList cs)).toOption

/-- What follows the mark of a stage: nothing or a number. -/
def minor? (stage : Stage) (major : Nat) : List Char → Option VersionRank
  | [] => some ⟨stage, major, none⟩
  | cs => (word? cs).map fun n => ⟨stage, major, some n⟩

def isDigit (c : Char) : Bool := '0' ≤ c && c ≤ '9'

/-- The rank of a version name such as `v1`, `v2beta1` or `v1alpha`. -/
def regular? : List Char → Option VersionRank
  | 'v' :: cs => do
    let major ← word? (cs.takeWhile isDigit)
    match cs.dropWhile isDigit with
    | [] => some ⟨.stable, major, none⟩
    | 'a' :: 'l' :: 'p' :: 'h' :: 'a' :: rest => minor? .alpha major rest
    | 'b' :: 'e' :: 't' :: 'a' :: rest => minor? .beta major rest
    | _ => none
  | _ => none

def ofName (name : String) : VersionRank := (regular? name.toList).getD { stage := .irregular }

/-- The parts that decide, the most important one first. -/
def parts (r : VersionRank) : List Nat :=
  [r.stage.rank, r.major, match r.minor with | none => 0 | some n => n + 1]

end VersionRank

/-- Whether the first version name stands before the second one; irregular ones go by their text. -/
def isNewer (a b : String) : Bool :=
  let ra := VersionRank.ofName a
  let rb := VersionRank.ofName b
  if ra.stage = .irregular ∧ rb.stage = .irregular then a < b else rb.parts < ra.parts

/-! ## Groups -/

/-- A kind as a server lists it. -/
structure ServedKind where
  kind : String
  version : String
  deriving DecidableEq, Repr

/-- A version of a group and the kinds listed for it. -/
structure ServedVersion where
  version : String
  kinds : List ServedKind
  deriving DecidableEq, Repr

/-- A group with its versions. -/
structure ServedGroup where
  name : String
  versions : List ServedVersion
  preferred : Option String
  deriving DecidableEq, Repr

namespace ServedGroup

/-- The better one of the best version so far and another one. -/
def better (best : Option String) (version : String) : Option String :=
  match best with
  | none => some version
  | some b => if isNewer version b then some version else some b

/-- The first of the newest versions. -/
def newest (g : ServedGroup) : Option String := (g.versions.map (·.version)).foldl better none

def recommended (g : ServedGroup) : Option String := g.preferred.orElse fun _ => g.newest

/-- The kinds of the recommended version. -/
def kinds (g : ServedGroup) : List ServedKind :=
  match g.versions.find? fun v => g.recommended = some v.version with
  | some v => v.kinds
  | none => []

/-- Whether the group recommends the kind at the version. -/
def serves (g : ServedGroup) (version kind : String) : Bool :=
  g.kinds.any fun k => k.kind = kind ∧ k.version = version

end ServedGroup

/-! ## Documents -/

/-- Checks the type of a document, where it is given. -/
def checkType (apiVersion kind name : String) (v : Source) : Decoded Unit :=
  let expect (wanted : String) : Decoded Unit := do
    let found ← v.decodeString
    if found = wanted then return () else throw (.invalidValue (.string found) wanted)
  match name with
  | "apiVersion" => expect apiVersion
  | "kind" => expect kind
  | _ => return ()

/-- A text, empty if null. -/
def textOrEmpty (v : Source) : Decoded String := return (← v.decodeOption Source.decodeString).getD ""

/-- A list, empty if null. -/
def listOrEmpty {α : Type} (decode : Source → Decoded α) (v : Source) : Decoded (List α) :=
  return (← v.decodeOption (Source.decodeList decode)).getD []

/-- A version of a group as the list of groups names it. -/
structure VersionEntry where
  groupVersion : String := ""
  version : String := ""
  deriving DecidableEq, Repr

namespace VersionEntry

def member (e : VersionEntry) (name : String) (v : Source) : Decoded VersionEntry :=
  match name with
  | "groupVersion" => return { e with groupVersion := ← textOrEmpty v }
  | "version" => return { e with version := ← textOrEmpty v }
  | _ => return e

def decode : Source → Decoded VersionEntry := Source.decodeMembers "GroupVersionForDiscovery" member {}

end VersionEntry

/-- Checks the addresses at which clients of some network reach a server. -/
def checkAddresses (v : Source) : Decoded Unit := do
  let check (_ : Unit) (name : String) (v : Source) : Decoded Unit :=
    match name with
    | "clientCIDR" => do let _ ← textOrEmpty v
    | "serverAddress" => do let _ ← textOrEmpty v
    | _ => return ()
  let _ ← listOrEmpty (Source.decodeMembers "ServerAddressByClientCIDR" check ()) v

/-- A group as the list of groups names it. -/
structure GroupEntry where
  name : String := ""
  versions : List VersionEntry := []
  preferred : Option VersionEntry := none
  deriving DecidableEq, Repr

namespace GroupEntry

def member (e : GroupEntry) (name : String) (v : Source) : Decoded GroupEntry :=
  match name with
  | "name" => return { e with name := ← textOrEmpty v }
  | "versions" => return { e with versions := ← listOrEmpty VersionEntry.decode v }
  | "preferredVersion" => return { e with preferred := ← v.decodeOption VersionEntry.decode }
  | "serverAddressByClientCIDRs" => do
    checkAddresses v
    return e
  | _ => do
    checkType "v1" "APIGroup" name v
    return e

def decode : Source → Decoded GroupEntry := Source.decodeMembers "APIGroup" member {}

def listMember (l : List GroupEntry) (name : String) (v : Source) : Decoded (List GroupEntry) :=
  match name with
  | "groups" => listOrEmpty decode v
  | _ => do
    checkType "v1" "APIGroupList" name v
    return l

/-- The list of all groups. -/
def decodeAll : Source → Decoded (List GroupEntry) := Source.decodeMembers "APIGroupList" listMember []

end GroupEntry

/-- A kind as the list of a version names it. -/
structure KindEntry where
  name : String := ""
  kind : String := ""
  version : Option String := none
  deriving DecidableEq, Repr

namespace KindEntry

/-- Checks the fields that are not kept. -/
def checkRest (name : String) (v : Source) : Decoded Unit :=
  match name with
  | "categories" => do let _ ← listOrEmpty Source.decodeString v
  | "group" => do let _ ← textOrEmpty v
  | "namespaced" => do let _ ← v.decodeOption Source.decodeBool
  | "shortNames" => do let _ ← listOrEmpty Source.decodeString v
  | "singularName" => do let _ ← textOrEmpty v
  | "storageVersionHash" => do let _ ← textOrEmpty v
  | "verbs" => do let _ ← listOrEmpty Source.decodeString v
  | _ => return ()

def member (e : KindEntry) (name : String) (v : Source) : Decoded KindEntry :=
  match name with
  | "name" => return { e with name := ← textOrEmpty v }
  | "kind" => return { e with kind := ← textOrEmpty v }
  | "version" => return { e with version := ← v.decodeOption Source.decodeString }
  | _ => do
    checkRest name v
    return e

def decode : Source → Decoded KindEntry := Source.decodeMembers "APIResource" member {}

end KindEntry

/-- The kinds of a version of a group. -/
structure KindList where
  groupVersion : String := ""
  kinds : List KindEntry := []
  deriving DecidableEq, Repr

namespace KindList

def member (l : KindList) (name : String) (v : Source) : Decoded KindList :=
  match name with
  | "groupVersion" => return { l with groupVersion := ← textOrEmpty v }
  | "resources" => return { l with kinds := ← listOrEmpty KindEntry.decode v }
  | _ => do
    checkType "v1" "APIResourceList" name v
    return l

def decode : Source → Decoded KindList := Source.decodeMembers "APIResourceList" member {}

/-- The version in the name of a version of a group. -/
def version (l : KindList) : String :=
  let cs := l.groupVersion.toList
  if '/' ∈ cs then String.ofList ((cs.dropWhile (· ≠ '/')).drop 1) else l.groupVersion

/-- The kinds served; parts of objects, whose names have a slash, are left out. -/
def served (l : KindList) : List ServedKind :=
  (l.kinds.filter fun e => !e.name.toList.contains '/').map fun e =>
    ⟨e.kind, e.version.getD l.version⟩

end KindList

def coreMember (l : List String) (name : String) (v : Source) : Decoded (List String) :=
  match name with
  | "versions" => listOrEmpty Source.decodeString v
  | "serverAddressByClientCIDRs" => do
    checkAddresses v
    return l
  | _ => do
    checkType "v1" "APIVersions" name v
    return l

/-- The versions of the group without a name. -/
def decodeCore : Source → Decoded (List String) := Source.decodeMembers "APIVersions" coreMember []

/-! ## Looking up a group -/

/-- Why a server could not tell what it serves. -/
inductive DiscoveryError where
  | api (error : ApiError)
  /-- The group has no version. -/
  | emptyGroup (name : String)
  deriving DecidableEq, Repr

/-- Something asked of a server on the way. -/
abbrev Inquiry (σ α : Type) := ExceptT DiscoveryError (StateM σ) α

namespace Transport

variable {σ : Type}

/-- Reads the document at a target. -/
def fetch {α : Type} (t : Transport σ) (target : String) (decode : Source → Decoded α) :
    Inquiry σ α := fun s =>
  match t.ask (Request.read target) s with
  | (.error e, s) => (.error (.api e), s)
  | (.ok a, s) => ((a.read decode).mapError .api, s)

/-- The kinds of each version, asked in order. -/
def fetchVersions (t : Transport σ) (root : String) :
    List VersionEntry → Inquiry σ (List ServedVersion)
  | [] => return []
  | e :: rest => do
    let l ← t.fetch (root ++ e.groupVersion) KindList.decode
    let others ← t.fetchVersions root rest
    return ⟨e.version, l.served⟩ :: others

/-- A group that the server lists. -/
def fetchGroup (t : Transport σ) (e : GroupEntry) : Inquiry σ ServedGroup := do
  if e.versions.isEmpty then throw (.emptyGroup e.name)
  else return ⟨e.name, ← t.fetchVersions "/apis/" e.versions, e.preferred.map (·.version)⟩

/-- The group without a name. -/
def fetchCore (t : Transport σ) : Inquiry σ ServedGroup := do
  let versions ← t.fetch "/api" decodeCore
  if versions.isEmpty then throw (.emptyGroup "")
  else return ⟨"", ← t.fetchVersions "/api/" (versions.map fun v => ⟨v, v⟩), some "v1"⟩

/-- The last of the listed groups. -/
def fetchLast (t : Transport σ) (found : Option ServedGroup) :
    List GroupEntry → Inquiry σ (Option ServedGroup)
  | [] => return found
  | e :: rest => do
    let g ← t.fetchGroup e
    t.fetchLast (some g) rest

/-- The group of a name, if the server has one. -/
def findGroup (t : Transport σ) (name : String) : Inquiry σ (Option ServedGroup) := do
  let groups ← t.fetch "/apis" GroupEntry.decodeAll
  let found ← t.fetchLast none (groups.filter (·.name = name))
  if name = "" then return some (← t.fetchCore) else return found

/-- Whether the server serves a kind. -/
def serves (t : Transport σ) (group version kind : String) : Inquiry σ Bool := do
  return (← t.findGroup group).any (·.serves version kind)

end Transport

/-! ## Waiting -/

/-- Seconds between the first two looks. -/
def firstInterval : Nat := 10

/-- Seconds between two looks at most. -/
def longestInterval : Nat := 60

def nextInterval (interval : Nat) : Nat := min (interval * 2) longestInterval

/-- Looks again and again, at growing intervals, until the answer is yes. A failure counts as a no.
Gives the seconds that are left then, or nothing if time runs out. -/
def waitUntil {σ ε : Type} (look : ExceptT ε (StateM σ) Bool) (left interval : Nat) :
    StateM σ (Option Nat) := fun s =>
  match look s with
  | (.ok true, s) => (some left, s)
  | (_, s) =>
    if _h : 0 < interval ∧ interval ≤ left then
      waitUntil look (left - interval) (nextInterval interval) s
    else (none, s)
termination_by left

/-- Waits until the server serves a kind, for a limited number of seconds. -/
def Transport.waitFor {σ : Type} (t : Transport σ) (group version kind : String) (limit : Nat) :
    StateM σ (Option Nat) := do
  return (← waitUntil (t.serves group version kind) limit firstInterval).map (limit - ·)

end ControlLoop.Api

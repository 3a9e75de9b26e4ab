import ProbeWeave.Files.World
import ProbeWeave.Profile.Record
import ProbeWeave.Text.Lines
import ProbeWeave.Yaml.Grammar
import ProbeWeave.Yaml.Printer

/-!
# The store of profiles

Profiles are kept in one file in the home directory, a map from their names to their settings. The
file may have been written by hand: what is not a map, or holds settings that do not fit, is
reported when it is needed. Putting in a profile leaves the others as they are.
-/

namespace ProbeWeave

open Files Yaml

/-- How a store is written as text: `none` for what is malformed, and inside for what is empty. -/
structure StoreFormat where
  read? : String → Option (Option Node)
  write : Node → String

/-- The format in which stores are written. -/
def StoreFormat.yaml : StoreFormat :=
  ⟨Yaml.read?, Yaml.write⟩

/-- Why a value gives no settings by name. -/
inductive PairFault where
  | notIterable (kind : String)
  | notSequence (index : Nat)
  | badLength (index length : Nat)
  | badKey (kind : String)
  deriving DecidableEq, Repr

/-- What a fault is reported as. -/
def PairFault.message : PairFault → String
  | notIterable kind => "'" ++ kind ++ "' object is not iterable"
  | notSequence index =>
    "cannot convert dictionary update sequence element #" ++ toString index ++ " to a sequence"
  | badLength index length =>
    "dictionary update sequence element #" ++ toString index ++ " has length " ++ toString length ++
      "; 2 is required"
  | badKey kind => "unhashable type: '" ++ kind ++ "'"

/-- What is wanted of a store, or of a profile in it, that only a map can give. -/
inductive MapUse where
  | value
  | names
  | size
  | membership
  | placing
  deriving DecidableEq, Repr

/-- What is said of a node that is no map when it is used as one. -/
def MapUse.complaint (kind : String) : MapUse → String
  | value => "'" ++ kind ++ "' object has no attribute 'get'"
  | names => "'" ++ kind ++ "' object has no attribute 'keys'"
  | size => "object of type '" ++ kind ++ "' has no len()"
  | membership => "argument of type '" ++ kind ++ "' is not iterable"
  | placing =>
    if kind == Node.kinds.list then "'<' not supported between instances of 'str' and 'int'"
    else "'" ++ kind ++ "' object does not support item assignment"

/-- Why a store could not be used. -/
inductive StoreFault where
  | malformed
  | unreadable (fault : ReadFault)
  | unwritable (fault : Files.Fault)
  /-- What should be a map is something else. -/
  | notMap (kind : String) (use : MapUse)
  | notPairs (fault : PairFault)
  | record (fault : RecordFault)
  | unknownKey (key : String)
  deriving DecidableEq, Repr

/-- What a fault is reported as. -/
def StoreFault.message : StoreFault → String
  | malformed => "the store is malformed"
  | unreadable fault => fault.message
  | unwritable fault => fault.message
  | notMap kind use => use.complaint kind
  | notPairs fault => fault.message
  | record fault => fault.message
  | unknownKey key => "Unknown profile key '" ++ key ++ "'."

/-- The name of the current profile. -/
def currentName : String := "Current"

/-- The name of the profile that new ones begin with. -/
def defaultName : String := "Default"

namespace Store

/-- The pair that an item of a list stands for. -/
def pairOf (index : Nat) (item : Node) : Except PairFault (Value × Value) :=
  let pair (parts : List Value) : Except PairFault (Value × Value) :=
    match parts with
    | [key, value] =>
      match key with
      | .list _ | .map _ => .error (.badKey (key.kindName Node.kinds))
      | key => .ok (key, value)
    | parts => .error (.badLength index parts.length)
  match item.value with
  | .text s => pair (s.toList.map fun c => .text (String.singleton c))
  | .list parts => pair parts
  | .map entries => pair (entries.map Prod.fst)
  | _ => .error (.notSequence index)

/-- The entries of a node. -/
def entriesOf (node : Node) : Except PairFault (List (Value × Value)) :=
  match node.bare with
  | .map _ entries => .ok (Node.entryValues entries)
  | .list _ items => (items.zipIdx).mapM fun (item, index) => pairOf index item
  | .scalar (.text ..) => .error (.badLength 0 1)
  | node => .error (.notIterable node.kindName)

/-- The settings among the entries of a node; a node that does not count as given has none. -/
def recordOf (node : Node) : Except PairFault Record := do
  let entries ← if node.value.isGiven then entriesOf node else .ok []
  return .ofList (entries.filterMap fun (key, value) =>
    match key with
    | .text name => some (name, value)
    | _ => none)

/-- The profile that a node gives. -/
def profileOf (node : Node) : Except StoreFault Profile := do
  let record ← (recordOf node).mapError .notPairs
  (Profile.ofRecord Node.kinds record).mapError .record

/-- Whether a node is a text. -/
def isName (name : String) (node : Node) : Bool :=
  match node.value with
  | .text s => s == name
  | _ => false

/-- The node of a key. -/
def find? (root : Node) (name : String) : Except StoreFault (Option Node) :=
  match root.bare with
  | .map _ entries => .ok ((entries.find? fun (key, _) => isName name key).map Prod.snd)
  | root => .error (.notMap root.kindName .value)

/-- Whether there is a profile of a name. -/
def contains (root : Option Node) (name : String) : Except StoreFault Bool :=
  match root.map Node.bare with
  | none => .ok false
  | some (.map _ entries) => .ok (entries.any fun (key, _) => isName name key)
  | some (.list _ items) => .ok (items.any (isName name))
  | some (.scalar (.text s _)) => .ok (name.isEmpty || (s.splitOn name).length > 1)
  | some root => .error (.notMap root.kindName .membership)

/-- The names of all profiles. -/
def names (root : Option Node) : Except StoreFault (List String) :=
  match root.map Node.bare with
  | none => .ok []
  | some (.map _ entries) => .ok (entries.map fun (key, _) => key.value.shown)
  | some (.list _ []) => .ok []
  | some root =>
    match root.value with
    | .text s => if s.isEmpty then .ok [] else .error (.notMap root.kindName .names)
    | .list _ => .error (.notMap root.kindName .names)
    | _ => .error (.notMap root.kindName .size)

/-- The setting that is stored under the name of a profile. -/
def setting? (root : Option Node) (name key : String) : Except StoreFault (Option Value) := do
  let some root := root | return none
  let some settings ← find? root name | return none
  return (← find? settings key).map Node.value

/-- The profile of a name; one that is not in the store is blank. -/
def profile (root : Option Node) (name : String) : Except StoreFault Profile :=
  match root with
  | none => .ok .blank
  | some root => do
    match ← find? root name with
    | none => return .blank
    | some node => profileOf node

/-- Replaces the value of a key, or adds the key. -/
def putEntry (name : String) (value : Node) : List (Node × Node) → List (Node × Node)
  | [] => [(.ofValue (.text name), value)]
  | (key, old) :: rest =>
    if isName name key then (key, value) :: rest else (key, old) :: putEntry name value rest

/-- The node of the settings of a record. -/
def nodeOf (r : Record) : Node :=
  .ofValue (.map (r.entries.map fun (key, value) => (.text key, value)))

/-- Puts settings into a store under a name. -/
def put (root : Option Node) (name : String) (r : Record) : Except StoreFault Node :=
  match root with
  | none => .ok (.map false [(.ofValue (.text name), nodeOf r)])
  | some root =>
    match root.bare with
    | .map inline entries => .ok (.map inline (putEntry name (nodeOf r) entries))
    | root => .error (.notMap root.kindName .placing)

end Store

end ProbeWeave

import Tinkerfin.Checkpoint.ResumeReceipt
import Tinkerfin.Lib.Base64

/-!
# Views of a saver by namespace

A view stores the checkpoints of a thread under a hash of its namespace and identity, stamps every
checkpoint with the identity itself, and returns nothing that does not carry the stamp.  The saver
is borrowed: it may copy configuration into metadata, drop null characters from keys, and echo the
configuration that it was given.
-/

namespace Tinkerfin.Checkpoint

open Messaging (ThreadIdentity RunIdentity)

inductive CheckpointError
  | lifecycle (message : String)
  | value (message : String)
  | validation
  deriving DecidableEq

/-! ## Identities as text -/

/-- Canonical text of a value in printable ASCII characters. -/
def asciiText (value : Json) : String :=
  String.ofList ((Json.dumps value).toList.flatMap asciiEscape)

def identityJson (identity : ThreadIdentity) : String :=
  asciiText (.object
    [("namespace", .string identity.namespace), ("threadId", .string identity.threadId)])

def LineageRole.text : LineageRole → String
  | .native => "native"
  | .planning => "planning"

def LineageMarker.dump (marker : LineageMarker) : List (String × Json) :=
  [("namespace", .string marker.namespace), ("threadId", .string marker.threadId),
   ("runId", .string marker.runId),
   ("parentRunId", marker.parentRunId.elim .null .string),
   ("runtimeProfile", .string marker.runtimeProfile), ("role", .string marker.role.text)]

def LineageMarker.canonicalJson (marker : LineageMarker) : String := asciiText (.object marker.dump)

/-- The original task of one approval. -/
structure ResumeAnchor where
  source : LineageMarker
  graphNamespace : String
  checkpointId : String
  taskId : String
  interruptId : String
  interruptJson : String
  toolCallsJson : String
  cancellationSupported : Bool
  deriving DecidableEq

def ResumeAnchor.dump (anchor : ResumeAnchor) : Json :=
  .object
    [("source", .object anchor.source.dump), ("graph_namespace", .string anchor.graphNamespace),
     ("checkpoint_id", .string anchor.checkpointId), ("task_id", .string anchor.taskId),
     ("interrupt_id", .string anchor.interruptId), ("interrupt_json", .string anchor.interruptJson),
     ("tool_calls_json", .string anchor.toolCallsJson),
     ("cancellation_supported", .bool anchor.cancellationSupported)]

/-- The decisions that a run resumes with, and the checkpoint that they answer. -/
structure ResumeIntent extends LineageMarker where
  digest : String
  sourceCheckpointId : String
  sourceCheckpointNs : String
  nativeInterruptIds : List String
  anchors : List ResumeAnchor
  storageCheckpointId : String
  storageCheckpointNs : String
  decisionsJson : String
  deriving DecidableEq

def ResumeIntent.canonicalJson (intent : ResumeIntent) : String :=
  asciiText (.object (intent.toLineageMarker.dump ++
    [("digest", .string intent.digest), ("sourceCheckpointId", .string intent.sourceCheckpointId),
     ("sourceCheckpointNs", .string intent.sourceCheckpointNs),
     ("nativeInterruptIds", .array (intent.nativeInterruptIds.map .string)),
     ("anchors", .array (intent.anchors.map ResumeAnchor.dump)),
     ("storageCheckpointId", .string intent.storageCheckpointId),
     ("storageCheckpointNs", .string intent.storageCheckpointNs),
     ("decisionsJson", .string intent.decisionsJson)]))

/-! ## Encodings -/

/-- Base 64 of the UTF-8 bytes of a text, in the standard alphabet and with padding. -/
def b64encode (text : String) : String :=
  let chars := Base64.encode (Bytes.utf8 text)
  String.ofList ((chars ++ Base64.padding chars.length).map fun char =>
    if char = '-' then '+' else if char = '_' then '/' else char)

/-- The text whose encoding a value is. -/
def b64decode (value : String) : Option String := do
  let bytes ← Base64.decode (value.toList.map fun char =>
    if char = '+' then '-' else if char = '/' then '_' else char)
  let text ← String.fromUTF8? bytes.toByteArray
  if b64encode text = value then some text else none

def stripNul (text : String) : String := String.ofList (text.toList.filter fun char => char.toNat ≠ 0)

def threadIdentityKey : String := "_tinkerfin_thread_identity"

def lineageMetadataKey : String := "_tinkerfin_lineage"

def resumeMetadataKey : String := "_tinkerfin_resume"

def redisMetadataKey : String := "_tinkerfin_metadata"

def ownedKeys : List String := [threadIdentityKey, lineageMetadataKey, resumeMetadataKey]

/-- Whether a key is, or may be stored as, a key of the view. -/
def ownedMetadataKey (key : String) : Bool := ownedKeys.contains (stripNul key)

/-! ## Configurations and checkpoints -/

/-- A configuration; `options` are the configurable entries that have no field of their own. -/
structure RunnableConfig (ν : Type) where
  threadId : Option String := none
  checkpointNs : Option String := none
  checkpointId : Option String := none
  lineage : Option LineageMarker := none
  resume : Option ResumeIntent := none
  options : Dict String ν := .empty
  metadata : Option (Dict String ν) := none

structure SavedState (κ : Type) where
  id : String
  channels : κ

/-- A checkpoint as a saver returns it. -/
structure CheckpointTuple (ν κ : Type) where
  config : RunnableConfig ν
  checkpoint : SavedState κ
  metadata : Dict String ν
  parentConfig : Option (RunnableConfig ν) := none
  pendingWrites : List (PendingWrite ν) := []

/-- The entries that a configuration brings into metadata. -/
def RunnableConfig.keys {ν : Type} (config : RunnableConfig ν) : List String :=
  config.options.keys ++ (config.metadata.elim [] Dict.keys)

/-- Where a checkpoint lies in a saver. -/
def RunnableConfig.location {ν : Type} (config : RunnableConfig ν) :
    Option String × String × Option String :=
  (config.threadId, config.checkpointNs.getD "", config.checkpointId)

/-- A Redis saver: the prefixes of its storage domain, and the JSON text of metadata. -/
structure RedisStorage (ν : Type) where
  checkpointPrefix : String
  writePrefix : String
  dumps : Dict String ν → String
  loads : String → Option (Dict String ν)
  loads_dumps : ∀ metadata, ∃ decoded, loads (dumps metadata) = some decoded ∧
    ∀ key, decoded.get? key = metadata.get? key

/-- What lies outside: metadata values, the graph engine, and the saver itself. -/
structure Upstream (ν κ : Type) where
  /-- Metadata values that are text. -/
  text : String → ν
  text? : ν → Option String
  text?_text : ∀ value, text? (text value) = some value
  /-- The metadata value that stands for no value. -/
  null : ν
  /-- Validation of the JSON text of ownership records. -/
  readThread : String → Option ThreadIdentity
  readLineage : String → Option LineageMarker
  readIntent : String → Option ResumeIntent
  /-- The metadata of a checkpoint with the scalars of its configuration. -/
  getCheckpointMetadata : RunnableConfig ν → Dict String ν → Dict String ν
  redis : Option (RedisStorage ν)
  /-- What the saver keeps of one call, except for the checkpoint itself. -/
  keepConfig : RunnableConfig ν → SavedState κ → RunnableConfig ν
  keepMetadata : RunnableConfig ν → Dict String ν → Dict String ν
  keepParent : RunnableConfig ν → Option (RunnableConfig ν)
  /-- The order of a thread's history, and the checkpoint that stands for a graph scope. -/
  history : List (CheckpointTuple ν κ) → List (CheckpointTuple ν κ)
  latest : List (CheckpointTuple ν κ) → Option (CheckpointTuple ν κ)

variable {ν κ : Type} (upstream : Upstream ν κ)

/-- The entries that a saver may turn into metadata; a Redis saver keeps to what it is given. -/
def Upstream.sources (config : RunnableConfig ν) (metadata : Dict String ν) : List String :=
  metadata.keys ++ if upstream.redis.isSome then [] else config.keys

/-- A saver that returns what was put, up to what savers do to configuration and metadata. -/
structure Upstream.Returns : Prop where
  mergeText : ∀ config metadata key value, metadata.get? key = some (upstream.text value) →
    stripNul value = value →
      (upstream.getCheckpointMetadata config metadata).get? key = some (upstream.text value)
  mergeKeys : ∀ config metadata, ∀ key ∈ (upstream.getCheckpointMetadata config metadata).keys,
    key ∈ metadata.keys ∨ key ∈ config.keys
  location : ∀ config checkpoint, (upstream.keepConfig config checkpoint).location =
    (config.threadId, config.checkpointNs.getD "", some checkpoint.id)
  parent : ∀ config parent, upstream.keepParent config = some parent →
    parent.location = config.location
  keepText : ∀ config metadata key value, metadata.get? key = some (upstream.text value) →
    stripNul value = value → stripNul key = key →
    (∀ source ∈ upstream.sources config metadata, stripNul source = key → source = key) →
      (upstream.keepMetadata config metadata).get? key = some (upstream.text value)
  keepKeys : ∀ config metadata, ∀ key ∈ (upstream.keepMetadata config metadata).keys,
    ∃ source ∈ upstream.sources config metadata, key = source ∨ key = stripNul source
  history : ∀ rows, (upstream.history rows).Perm rows
  latest : ∀ rows row, upstream.latest rows = some row → row ∈ rows

/-! ## Translation -/

/-- The text that a thread is stored under the hash of. -/
def canonicalThread (identity : ThreadIdentity) : String :=
  match upstream.redis with
  | none => identityJson identity
  | some storage => asciiText (.object
      [("checkpointPrefix", .string storage.checkpointPrefix),
       ("identity", .string (identityJson identity)),
       ("writePrefix", .string storage.writePrefix)])

def physicalThread (identity : ThreadIdentity) : String :=
  Sha256.hexdigest (Bytes.utf8 (canonicalThread upstream identity))

def decodeGraphScope (scope : String) : Except CheckpointError String :=
  match b64decode scope with
  | some scope => .ok scope
  | none => .error (.lifecycle "checkpoint graph scope is invalid")

def validIdentifier (value : String) (limit : Nat) : Bool :=
  value ≠ "" && value.length ≤ limit && value = Bytes.strip value

def ThreadIdentity.validate (identity : ThreadIdentity) : Except CheckpointError ThreadIdentity :=
  if validIdentifier identity.namespace 128 && validIdentifier identity.threadId 1024 then
    .ok identity
  else .error .validation

/-- A view of a saver for one namespace. -/
structure NamespaceCheckpointer where
  «namespace» : String
  valid : validIdentifier «namespace» 128

namespace NamespaceCheckpointer

variable (view : NamespaceCheckpointer)

/-- The identity that a configuration selects, checked against the run that it binds. -/
def identity (config : RunnableConfig ν) : Except CheckpointError ThreadIdentity :=
  match config.threadId with
  | none => .error (.value "checkpoint operations require a logical thread_id")
  | some threadId => do
    let identity ← ThreadIdentity.validate { «namespace» := view.namespace, threadId }
    match config.lineage with
    | none => return identity
    | some lineage =>
      if lineage.toThreadIdentity = identity then return identity
      else .error (.lifecycle "checkpoint invocation has conflicting run ownership")

def withoutOwnedKeys (entries : Dict String ν) : Dict String ν :=
  entries.filter fun key _ => !ownedMetadataKey key

/-- The configuration that a saver gets. -/
def physical (config : RunnableConfig ν) : Except CheckpointError (RunnableConfig ν) := do
  let identity ← view.identity config
  return { config with
    threadId := some (physicalThread upstream identity)
    checkpointNs :=
      if upstream.redis.isSome then some (b64encode (config.checkpointNs.getD ""))
      else config.checkpointNs
    lineage := none
    resume := none
    options := withoutOwnedKeys config.options
    metadata := config.metadata.map withoutOwnedKeys }

/-- The configuration that a caller gets back. -/
def logicalConfig (config : RunnableConfig ν) (identity : ThreadIdentity) :
    Except CheckpointError (RunnableConfig ν) :=
  if config.threadId ≠ some (physicalThread upstream identity) then
    .error (.lifecycle "checkpoint configuration has conflicting thread identity")
  else do
    let checkpointNs ←
      if upstream.redis.isSome then
        (decodeGraphScope (config.checkpointNs.getD "")).map some
      else .ok config.checkpointNs
    return { config with
      threadId := some identity.threadId, checkpointNs, lineage := none, resume := none }

/-! ## Metadata -/

def decodeMetadata (value : ν) : Except CheckpointError String :=
  match upstream.text? value with
  | none => .error (.lifecycle "checkpoint ownership metadata is not text")
  | some value =>
    match b64decode value with
    | some text => .ok text
    | none => .error (.lifecycle "checkpoint ownership metadata is invalid")

/-- What a Redis saver stores: the whole metadata as one value, beside the index selectors. -/
def redisMetadata (storage : RedisStorage ν) (metadata : Dict String ν) : Dict String ν :=
  let encoded : Dict String ν :=
    Dict.empty.insert redisMetadataKey (upstream.text (b64encode (storage.dumps metadata)))
  let sourced := (metadata.get? "source").elim encoded (encoded.insert "source")
  (metadata.get? "step").elim sourced (sourced.insert "step")

def readRedisMetadata (storage : RedisStorage ν) (metadata : Dict String ν) :
    Except CheckpointError (Dict String ν) := do
  let encoded ←
    match metadata.get? redisMetadataKey with
    | none => .error (.lifecycle "checkpoint ownership metadata is not text")
    | some value => decodeMetadata upstream value
  match storage.loads encoded with
  | some decoded => return decoded
  | none => .error (.lifecycle "checkpoint metadata is invalid")

/-- The metadata with one of the view's own values in the clear. -/
def decodeOwned (metadata : Dict String ν) (key : String) :
    Except CheckpointError (Dict String ν) :=
  match metadata.get? key with
  | none => .ok metadata
  | some value => (decodeMetadata upstream value).map fun text =>
    metadata.insert key (upstream.text text)

/-- The metadata of a saved checkpoint, with the view's own values in the clear. -/
def readMetadata (metadata : Dict String ν) : Except CheckpointError (Dict String ν) := do
  let metadata ←
    match upstream.redis with
    | some storage => readRedisMetadata upstream storage metadata
    | none => .ok metadata
  ownedKeys.foldlM (decodeOwned upstream) metadata

/-- Whether an intent belongs to the run that a checkpoint is marked with. -/
def validateIntent (intent : ResumeIntent) (lineage : Option LineageMarker) : Bool :=
  match lineage with
  | none => false
  | some lineage =>
    intent.toRunIdentity == lineage.toRunIdentity && intent.parentRunId == lineage.parentRunId &&
      intent.runtimeProfile == lineage.runtimeProfile

def checkIdentity (metadata : Dict String ν) (identity : ThreadIdentity) :
    Except CheckpointError Unit :=
  match (metadata.get? threadIdentityKey).bind upstream.text? with
  | none => .error (.lifecycle "checkpoint lacks canonical thread identity evidence")
  | some proof =>
    match upstream.readThread proof with
    | none => .error (.lifecycle "checkpoint thread identity is invalid")
    | some persisted =>
      if persisted = identity ∧ proof = identityJson persisted then .ok ()
      else .error (.lifecycle "checkpoint belongs to another logical thread")

def checkLineage (metadata : Dict String ν) (identity : ThreadIdentity) :
    Except CheckpointError (Option LineageMarker) :=
  match metadata.get? lineageMetadataKey with
  | none => .ok none
  | some raw =>
    match (upstream.text? raw).bind upstream.readLineage with
    | none => .error (.lifecycle "checkpoint has invalid run ownership evidence")
    | some lineage =>
      if lineage.toThreadIdentity = identity ∧
          upstream.text? raw = some lineage.canonicalJson then
        .ok (some lineage)
      else .error (.lifecycle "checkpoint has invalid run ownership evidence")

def checkResume (metadata : Dict String ν) (lineage : Option LineageMarker) :
    Except CheckpointError Unit :=
  match metadata.get? resumeMetadataKey with
  | none => .ok ()
  | some raw =>
    match (upstream.text? raw).bind upstream.readIntent with
    | none => .error (.lifecycle "checkpoint has invalid resume ownership evidence")
    | some intent =>
      if validateIntent intent lineage ∧ upstream.text? raw = some intent.canonicalJson then
        .ok ()
      else .error (.lifecycle "checkpoint has invalid resume ownership evidence")

/-- A saved checkpoint with its evidence checked and its coordinates translated back. -/
def logical (saved : CheckpointTuple ν κ) (identity : ThreadIdentity) :
    Except CheckpointError (CheckpointTuple ν κ) :=
  if saved.config.checkpointId ≠ some saved.checkpoint.id then
    .error (.lifecycle "checkpoint tuple has conflicting checkpoint coordinates")
  else do
    let metadata ← readMetadata upstream saved.metadata
    checkIdentity upstream metadata identity
    let lineage ← checkLineage upstream metadata identity
    checkResume upstream metadata lineage
    let config ← logicalConfig upstream saved.config identity
    let parentConfig ← saved.parentConfig.mapM (logicalConfig upstream · identity)
    return { saved with config, metadata, parentConfig }

/-! ## Reading -/

/-- The checkpoints and the pending writes of a saver, by thread, graph scope and checkpoint. -/
structure SaverState (ν κ : Type) where
  rows : Dict (String × String × String) (CheckpointTuple ν κ) := .empty
  writes : Dict (String × String × String) (WriteSlots ν) := .empty

def rowKey (row : CheckpointTuple ν κ) : String × String × String :=
  (row.config.threadId.getD "", row.config.checkpointNs.getD "", row.checkpoint.id)

/-- A checkpoint with the writes that wait in it. -/
def SaverState.load (saver : SaverState ν κ) (row : (String × String × String) × CheckpointTuple ν κ) :
    CheckpointTuple ν κ :=
  { row.2 with pendingWrites := (saver.writes.get? row.1).elim [] WriteSlots.pendingWrites }

/-- A saver's own lookup. -/
def savedTuple (saver : SaverState ν κ) (config : RunnableConfig ν) : Option (CheckpointTuple ν κ) :=
  let thread := config.threadId.getD ""
  let scope := config.checkpointNs.getD ""
  match config.checkpointId with
  | none | some "" => upstream.latest
      ((saver.rows.entries.filter fun row => row.1.1 = thread ∧ row.1.2.1 = scope).map saver.load)
  | some checkpointId =>
    (saver.rows.get? (thread, scope, checkpointId)).map fun row =>
      saver.load ((thread, scope, checkpointId), row)

/-- Read one checkpoint. -/
def agetTuple (saver : SaverState ν κ) (config : RunnableConfig ν) :
    Except CheckpointError (Option (CheckpointTuple ν κ)) := do
  let identity ← view.identity config
  let physical ← view.physical upstream config
  match savedTuple upstream saver physical with
  | none => return none
  | some saved =>
    let logical ← logical upstream saved identity
    if logical.config.checkpointNs.getD "" ≠ config.checkpointNs.getD "" ∨
        (config.checkpointId ≠ none ∧ config.checkpointId ≠ some "" ∧
          config.checkpointId ≠ some logical.checkpoint.id) then
      .error (.lifecycle "checkpoint lookup returned another requested location")
    else return some logical

/-- The rows of a thread in the order of the saver. -/
def threadRows (saver : SaverState ν κ) (thread : String) : List (CheckpointTuple ν κ) :=
  upstream.history ((saver.rows.entries.filter fun row => row.1.1 = thread).map saver.load)

/-- What a listing selects. -/
structure Selection (ν : Type) where
  checkpointNs : Option String
  checkpointId : Option String
  before : Option String
  filter : List (String × ν)

variable [DecidableEq ν]

def Selection.matches (upstream : Upstream ν κ) (selection : Selection ν) (row : CheckpointTuple ν κ) : Bool :=
  selection.checkpointNs.all (row.config.checkpointNs.getD "" = ·) &&
    selection.checkpointId.all (row.config.checkpointId = some ·) &&
    selection.before.all (row.checkpoint.id < ·) &&
    selection.filter.all fun (key, value) => (row.metadata.get? key).getD upstream.null = value

/-- Yield the selected rows up to a limit; a row without evidence ends the stream. -/
def yields (identity : ThreadIdentity) (selection : Selection ν) :
    Option Nat → List (CheckpointTuple ν κ) →
      List (CheckpointTuple ν κ) × Except CheckpointError Unit
  | some 0, _ => ([], .ok ())
  | _, [] => ([], .ok ())
  | limit, saved :: rest =>
    match logical upstream saved identity with
    | .error error => ([], .error error)
    | .ok row =>
      if selection.matches upstream row then
        let (rows, outcome) := yields identity selection (limit.map (· - 1)) rest
        (row :: rows, outcome)
      else yields identity selection limit rest

/-- List the history of a thread. -/
def alist (saver : SaverState ν κ) (config : RunnableConfig ν) (before : Option (RunnableConfig ν))
    (filter : List (String × ν)) (limit : Option Int) :
    List (CheckpointTuple ν κ) × Except CheckpointError Unit :=
  if limit.any (· < 0) then
    ([], .error (.value "checkpoint history limit must not be negative"))
  else
    match view.identity config with
    | .error error => ([], .error error)
    | .ok identity =>
      if limit = some 0 then ([], .ok ())
      else
        let selected (cursor : Option String) :=
          yields upstream identity
            { checkpointNs := config.checkpointNs, checkpointId := config.checkpointId
              before := cursor, filter }
            (limit.map Int.toNat) (threadRows upstream saver (physicalThread upstream identity))
        match before with
        | none => selected none
        | some before =>
          if before.threadId.any (· ≠ identity.threadId) then
            ([], .error (.value "checkpoint history cursor belongs to another thread"))
          else
            match before.checkpointId with
            | none => ([], .error (.value "checkpoint history cursor requires checkpoint_id"))
            | some cursor => selected (some cursor)

omit [DecidableEq ν]

/-! ## Writing -/

/-- The metadata of a checkpoint with the evidence of its thread and its run. -/
def stamp (config : RunnableConfig ν) (metadata : Dict String ν) (identity : ThreadIdentity) :
    Except CheckpointError (Dict String ν) :=
  let encoded (text : String) : ν := upstream.text (b64encode text)
  let owned := (withoutOwnedKeys metadata).insert threadIdentityKey (encoded (identityJson identity))
  let owned := config.lineage.elim owned fun lineage =>
    owned.insert lineageMetadataKey (encoded lineage.canonicalJson)
  match config.resume with
  | none => .ok owned
  | some intent =>
    if validateIntent intent config.lineage then
      .ok (owned.insert resumeMetadataKey (encoded intent.canonicalJson))
    else .error (.value "resume intent conflicts with checkpoint run ownership")

/-- What the saver keeps of a checkpoint that is put through a view. -/
def putRow (config : RunnableConfig ν) (checkpoint : SavedState κ) (metadata : Dict String ν) :
    Except CheckpointError (CheckpointTuple ν κ) := do
  let identity ← view.identity config
  let owned ← stamp upstream config metadata identity
  let physical ← view.physical upstream config
  let merged := upstream.getCheckpointMetadata physical owned
  let stored := upstream.redis.elim merged fun storage => redisMetadata upstream storage merged
  return {
    config := upstream.keepConfig physical checkpoint
    checkpoint
    metadata := upstream.keepMetadata physical stored
    parentConfig := upstream.keepParent physical }

/-- Save a checkpoint, and return its configuration. -/
def aput (saver : SaverState ν κ) (config : RunnableConfig ν) (checkpoint : SavedState κ)
    (metadata : Dict String ν) :
    SaverState ν κ × Except CheckpointError (RunnableConfig ν) :=
  match view.putRow upstream config checkpoint metadata with
  | .error error => (saver, .error error)
  | .ok row =>
    ({ saver with rows := saver.rows.insert (rowKey row) row },
      do logicalConfig upstream row.config (← view.identity config))

/-- The saver's own handling of the writes of one owner. -/
def SaverState.putWrites (saver : SaverState ν κ) (key : String × String × String)
    (owner : String) (writes : List (String × ν)) : SaverState ν κ :=
  { saver with
    writes := saver.writes.insert key
      (((saver.writes.get? key).getD .empty).putAll owner writes) }

/-- Save the writes of a task, each group under its owner. -/
def aputWrites (saver : SaverState ν κ) (config : RunnableConfig ν)
    (groups : List (String × List (String × ν))) : SaverState ν κ :=
  match view.physical upstream config with
  | .error _ => saver
  | .ok physical =>
    let key := (physical.threadId.getD "", physical.checkpointNs.getD "",
      physical.checkpointId.getD "")
    groups.foldl (fun saver (owner, writes) => saver.putWrites key owner writes) saver

/-- Delete a thread. -/
def adeleteThread (saver : SaverState ν κ) (threadId : String) : SaverState ν κ :=
  match ThreadIdentity.validate { «namespace» := view.namespace, threadId } with
  | .error _ => saver
  | .ok identity =>
    let physical := physicalThread upstream identity
    { rows := saver.rows.filter fun key _ => key.1 ≠ physical
      writes := saver.writes.filter fun key _ => key.1 ≠ physical }

end NamespaceCheckpointer

/-! ## Runs -/

open NamespaceCheckpointer

/-- A call through a view, or a write that goes around the views. -/
inductive SaverOperation (ν κ : Type)
  | aput (view : NamespaceCheckpointer) (config : RunnableConfig ν) (checkpoint : SavedState κ)
      (metadata : Dict String ν)
  | aputWrites (view : NamespaceCheckpointer) (config : RunnableConfig ν)
      (groups : List (String × List (String × ν)))
  | adeleteThread (view : NamespaceCheckpointer) (threadId : String)
  | rawPut (row : CheckpointTuple ν κ)
  | rawWrites (key : String × String × String) (owner : String) (writes : List (String × ν))

def applyOperation (saver : SaverState ν κ) : SaverOperation ν κ → SaverState ν κ
  | .aput view config checkpoint metadata =>
    (view.aput upstream saver config checkpoint metadata).1
  | .aputWrites view config groups => view.aputWrites upstream saver config groups
  | .adeleteThread view threadId => view.adeleteThread upstream saver threadId
  | .rawPut row => { saver with rows := saver.rows.insert (rowKey row) row }
  | .rawWrites key owner writes => saver.putWrites key owner writes

end Tinkerfin.Checkpoint

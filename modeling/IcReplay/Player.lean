import IcReplay.Run
import IcReplay.Changelog

/-!
# ic-replay - The Player

A translation of `Player` in `rs/replay/src/player.rs`, method by method, over
the runs of `IcReplay.Run`.  Every service the Player reaches, through a field or
through a free function of another crate, is given by what it answers at each
time; the Player's consensus pool lives in the world.

Console output is not modelled, nor the service reads whose value only feeds
console output.  The `backup` module is not under `src/`: its scanner, its
directory scan and its catch-up package reader are services, and the one effect
of it that the Player relies on, inserting a catch-up package into the pool, is
modelled from the spec.
-/

namespace IcReplay

/-! ## Services -/

/-- The state manager, by its answers at each time. -/
structure StateManager where
  /-- `latest_state_height()`. -/
  latestHeight : Nat → Height
  /-- `get_state_hash_at(height)`. -/
  hashAt : Nat → Height → Except StateHashError CryptoHashOfState

/-- Message routing, by its answers at each time. -/
structure MessageRouting where
  /-- `expected_batch_height()`. -/
  expectedHeight : Nat → Height
  /-- `deliver_batch(batch)`. -/
  deliverAnswer : Nat → Batch → Except MessageRoutingError Unit

/-- The registry client, by its answers at each time. -/
structure RegistryClient where
  /-- `get_latest_version()`. -/
  latestVersion : Nat → RegistryVersion
  /-- `poll_once()`. -/
  pollAnswer : Nat → Except String Unit
  /-- `lookup_replica_version(registry, subnet_id, _, version)` of the consensus crate:
  the replica build the registry records for a subnet at a version. -/
  replicaVersionAt : Nat → SubnetId → RegistryVersion → Option ReplicaVersion

/-- The crypto component built over the registry for verification. -/
structure Crypto where
  /-- `verify_combined_threshold_sig_by_public_key(signature, content, subnet_id, version)`. -/
  verifyAnswer :
    Nat → List UInt8 → List UInt8 → SubnetId → RegistryVersion → Except String Unit

/-- The certification pool on disk, read only. -/
structure CertificationPool where
  certifiedHeights : List Height
  certificationAtHeight : Height → Option Certification

/-- The backup spool (`backup` module), by its answers at each time. -/
structure BackupSpool where
  /-- `heights_to_artifacts_metadata(dir, start_height)`. -/
  scan : Nat → String → Height → Except String Unit
  /-- `deserialize_consensus_artifacts(.., latest_state_height)`: the exit point, and the
  finalized height and tip of the pool after the artifacts were fed into it. -/
  deserialize : Nat → Height → ExitPoint × Height × Option Block
  /-- `read_cup_at_height(dir, height)`. -/
  readCup : Nat → String → Height → CUPWithOriginalProtobuf

/-- The codecs of the registry canister's wire format (`ic_registry_transport`). -/
structure RegistryCodec where
  /-- `serialize_get_changes_since_request(version)`. -/
  encodeChangesSince : RegistryVersion → Except String (List UInt8)
  /-- `deserialize_get_changes_since_response` followed by
  `registry_deltas_to_registry_transport_records`. -/
  decodeChangesSince : List UInt8 → Except String (List RegistryTransportRecord)
  /-- `deserialize_get_latest_version_response`. -/
  decodeLatestVersion : List UInt8 → Except String RegistryVersion
  /-- `serialize_get_value_request(key.as_bytes().to_vec(), None)`. -/
  serializeGetValueRequest : String → Except String (List UInt8)
  /-- `deserialize_get_value_response`: the bytes of the value; its version is dropped. -/
  deserializeGetValueResponse : List UInt8 → Except String (List UInt8)
  /-- `deserialize_registry_value::<BlessedReplicaVersions>(Ok(Some(bytes)))`. -/
  decodeBlessedReplicaVersions : List UInt8 → Except String (Option BlessedReplicaVersions)
  /-- `deserialize_registry_value::<SubnetRecord>(Ok(Some(bytes)))`. -/
  decodeSubnetRecord : List UInt8 → Except String (Option SubnetRecord)
  /-- `make_blessed_replica_version_key()`. -/
  blessedReplicaVersionKey : String
  /-- `make_subnet_record_key(subnet_id)`. -/
  subnetRecordKey : SubnetId → String

/-- The Player's fields, with the services it reaches through them or through
free functions (`deliver_batches` and `lookup_replica_version` of the consensus
crate, the backup module, the local store, the system clock). -/
structure Player where
  stateManager : StateManager
  messageRouting : MessageRouting
  /-- Consensus' `deliver_batches(.., replay_target_height, ..)`: the last height delivered. -/
  consensusDeliverBatches : Nat → Option Height → Except MessageRoutingError Height
  crypto : Crypto
  /-- `http_query_handler.query(query, ..)`. -/
  queryAnswer : Nat → UserQuery → Except String WasmResult
  /-- `ingress_history_reader.get_latest_status()`. -/
  latestStatus : Nat → MessageId → IngressStatus
  certificationPool : Option CertificationPool
  registry : RegistryClient
  codec : RegistryCodec
  localStorePath : Option String
  /-- `LocalStoreImpl::new(path).store(version, entry)`. -/
  storeAnswer : Nat → String → RegistryVersion → ChangelogEntry → Except String Unit
  replicaVersion : ReplicaVersion
  subnetId : SubnetId
  backupDir : Option String
  backup : BackupSpool
  replayTargetHeight : Option Nat
  /-- `current_time()`. -/
  systemTime : Nat → Time
  /-- `crypto_hashable_to_seed(block)`. -/
  cryptoHashableToSeed : Block → Randomness

/-- `with_replay_target_height`: the same Player with another target height. -/
def Player.withReplayTargetHeight (self : Player) (replayTargetHeight : Option Nat) : Player :=
  { self with replayTargetHeight }

/-! ## Calls to the services -/

/-- The text of `Option::unwrap` on `None`. -/
def unwrapNone : String := "called `Option::unwrap()` on a `None` value"

/-- The text of `Result::unwrap` on an `Err`, given the error's text. -/
def unwrapErr (err : String) : String := "called `Result::unwrap()` on an `Err` value: " ++ err

def StateManager.latestStateHeight (sm : StateManager) : PlayerM Height :=
  ask sm.latestHeight

def StateManager.getStateHashAt (sm : StateManager) (height : Height) :
    PlayerM (Except StateHashError CryptoHashOfState) :=
  ask (sm.hashAt · height)

def StateManager.removeStatesBelow (_sm : StateManager) (height : Height) : PlayerM Unit :=
  call (fun _ => ()) fun t _ => [.removeStatesBelow t height]

def StateManager.deliverStateCertification (_sm : StateManager) (certification : Certification) :
    PlayerM Unit :=
  call (fun _ => ()) fun _ _ => [.deliverStateCertification certification]

def MessageRouting.expectedBatchHeight (mr : MessageRouting) : PlayerM Height :=
  ask mr.expectedHeight

def MessageRouting.deliverBatch (mr : MessageRouting) (batch : Batch) :
    PlayerM (Except MessageRoutingError Unit) :=
  call (mr.deliverAnswer · batch) fun _ r => if r.isOk then [.deliverBatch batch] else []

def RegistryClient.getLatestVersion (registry : RegistryClient) : PlayerM RegistryVersion :=
  ask registry.latestVersion

def RegistryClient.pollOnce (registry : RegistryClient) : PlayerM (Except String Unit) :=
  ask registry.pollAnswer

/-- `lookup_replica_version(registry, subnet_id, _, version)`. -/
def lookupReplicaVersion (registry : RegistryClient) (subnetId : SubnetId)
    (version : RegistryVersion) : PlayerM (Option ReplicaVersion) :=
  ask (registry.replicaVersionAt · subnetId version)

def Crypto.verifyCombinedThresholdSigByPublicKey (crypto : Crypto) (signature content : List UInt8)
    (subnetId : SubnetId) (version : RegistryVersion) : PlayerM (Except String Unit) :=
  ask (crypto.verifyAnswer · signature content subnetId version)

/-- `PurgeValidatedBelow(height)` applied to the Player's consensus pool. -/
def purgeValidatedBelow (height : Height) : PlayerM Unit :=
  call (fun _ => ()) fun _ _ => [.purgeValidatedBelow height]

/-- Consensus' `deliver_batches`, which logs what it delivered. -/
def Player.deliverFinalizedBatches (self : Player) (replayTargetHeight : Option Height) :
    PlayerM (Except MessageRoutingError Height) :=
  call (self.consensusDeliverBatches · replayTargetHeight) fun _ r =>
    match r with
    | .ok h => [.deliverFinalizedBatches h]
    | .error _ => []

def Player.currentTime (self : Player) : PlayerM Time :=
  ask self.systemTime

/-- `ingress_history_reader.get_latest_status()`: a snapshot of the ingress history. -/
def Player.getLatestStatus (self : Player) : PlayerM (MessageId → IngressStatus) :=
  ask self.latestStatus

def Player.query (self : Player) (query : UserQuery) : PlayerM (Except String WasmResult) :=
  ask (self.queryAnswer · query)

def Player.store (self : Player) (path : String) (version : RegistryVersion)
    (entry : ChangelogEntry) : PlayerM (Except String Unit) :=
  call (self.storeAnswer · path version entry) fun _ r =>
    if r.isOk then [.store version entry] else []

/-- `backup::deserialize_consensus_artifacts(registry, pool.unwrap(), .., latest_state_height)`. -/
def Player.deserializeConsensusArtifacts (self : Player) : PlayerM ExitPoint := do
  let some pool ← getPool | abort unwrapNone
  let latest ← self.stateManager.latestStateHeight
  let (exitPoint, finalizedHeight, finalizedTip) ←
    call (self.backup.deserialize · latest) fun _ _ => [.ingestArtifacts]
  setPool (some { pool with finalizedHeight, finalizedTip })
  return exitPoint

/-- Modelled from the spec: `backup::insert_cup_at_height(pool, dir, height)` is not
under `src/`; it reads the spool's catch-up package at `height` and inserts it into
the pool, whose cache then returns it. -/
def Player.insertCupAtHeight (self : Player) (backupDir : String) (height : Height) :
    PlayerM Unit := do
  let some pool ← getPool | abort unwrapNone
  let cup ← call (self.backup.readCup · backupDir height) fun _ _ => [.insertCup height]
  setPool (some { pool with cup })

/-! ## Waiting for states -/

/-- `get_state_hash`: poll until the hash at `height` is computed.  A height that is
not fully certified has no hash; any other permanent error aborts. -/
def getStateHash (stateManager : StateManager) (height : Height) :
    PlayerM (Option CryptoHashOfState) :=
  loop do
    match ← stateManager.getStateHashAt height with
    | .ok hash => return some (some hash)
    | .error (.transient _) => return none
    | .error (.permanent (.stateNotFullyCertified h)) =>
      if h = height then return some none
      else abort ("State computation failed: " ++ reprStr (StateHashError.permanent
        (.stateNotFullyCertified h)))
    | .error err => abort ("State computation failed: " ++ reprStr err)

/-- `wait_for_state`: block until the state at `height` is committed, then assert
that it is the latest state. -/
def Player.waitForState (self : Player) (height : Height) : PlayerM Unit := do
  loop do
    -- The state manager would return a permanent error on a too big height.
    if (← self.stateManager.latestStateHeight) ≥ height then
      let _ ← getStateHash self.stateManager height
      return some ()
    return none
  let latest ← self.stateManager.latestStateHeight
  if height ≠ latest then
    abort s!"Latest delivered batch is of height {height} while the latest known state is at height {latest}"

/-- `get_latest_cup`: the catch-up package of the pool's cache. -/
def Player.getLatestCup (_self : Player) : PlayerM CUPWithOriginalProtobuf := do
  let some pool ← getPool | abort "no consensus_pool"
  return pool.cup

/-- `get_highest_catch_up_package`: the pool reader's highest catch-up package, the
one of the pool's cache. -/
def Player.getHighestCatchUpPackage (_self : Player) : PlayerM CatchUpPackage := do
  let some pool ← getPool | abort unwrapNone
  return pool.cup.cup

/-- `get_latest_state_height_and_hash`: the latest state and its hash, or the
latest catch-up package when that state is held in memory only. -/
def Player.getLatestStateHeightAndHash (self : Player) : PlayerM StateParams := do
  let height ← self.stateManager.latestStateHeight
  self.waitForState height
  match ← self.stateManager.getStateHashAt height with
  | .ok hashRaw => return (height, hexEncode hashRaw.bytes)
  | .error _ =>
    let lastCup := (← self.getLatestCup).cup
    return (lastCup.height, hexEncode lastCup.content.stateHash.bytes)

/-! ## Registry -/

/-- The query shared by the Player's calls to the registry canister: an anonymous
query of `methodName`, whose reply is decoded by `decode`; a rejection and a
failed run are reported as texts. -/
def Player.queryRegistry {α : Type} (self : Player) (methodName : String)
    (payload : List UInt8) (ingressExpiry : Time) (decode : List UInt8 → Except String α) :
    PlayerM (Except String α) := do
  match ← self.query { methodName, methodPayload := payload, ingressExpiry } with
  | .ok (.reply v) => return decode v
  | .ok (.reject e) => return .error ("Query rejected: " ++ e)
  | .error err => return .error ("Failed run query: " ++ err)

/-- `get_latest_registry_version`. -/
def Player.getLatestRegistryVersion (self : Player) (ingressExpiry : Time) :
    PlayerM (Except String RegistryVersion) :=
  self.queryRegistry "get_latest_version" [] ingressExpiry self.codec.decodeLatestVersion

/-- `get_changes_since`: the request is encoded and unwrapped before the query. -/
def Player.getChangesSince (self : Player) (version : RegistryVersion) (ingressExpiry : Time) :
    PlayerM (Except String (List RegistryTransportRecord)) :=
  match self.codec.encodeChangesSince version with
  | .error err => abort (unwrapErr err)
  | .ok payload =>
    self.queryRegistry "get_changes_since" payload ingressExpiry self.codec.decodeChangesSince

/-- The `get_value` queries of a registry record: the value stored under `key`,
decoded by `decodeRecord`.  A request that fails to encode is returned before any
query is made; `missing` is the text of the panic when the value decodes to no
record, and `failedRun` the prefix of the text of a failed run. -/
def Player.getValue {α : Type} (self : Player) (key : String) (ingressExpiry : Time)
    (decodeRecord : List UInt8 → Except String (Option α)) (missing failedRun : String) :
    PlayerM (Except String α) :=
  match self.codec.serializeGetValueRequest key with
  | .error err => return .error err
  | .ok methodPayload => do
    match ← self.query { methodName := "get_value", methodPayload, ingressExpiry } with
    | .ok (.reply v) =>
      match self.codec.deserializeGetValueResponse v >>= decodeRecord with
      | .ok (some record) => return .ok record
      | .ok none => abort missing
      | .error err => return .error err
    | .ok (.reject e) => return .error ("Query rejected: " ++ e)
    | .error err => return .error (failedRun ++ err)

/-- `get_blessed_replica_versions`. -/
def Player.getBlessedReplicaVersions (self : Player) (ingressExpiry : Time) :
    PlayerM (Except String BlessedReplicaVersions) :=
  self.getValue self.codec.blessedReplicaVersionKey ingressExpiry
    self.codec.decodeBlessedReplicaVersions "BlessedReplicaVersions does not exist" "Query failed: "

/-- `get_subnet_record`. -/
def Player.getSubnetRecord (self : Player) (ingressExpiry : Time) :
    PlayerM (Except String SubnetRecord) :=
  self.getValue (self.codec.subnetRecordKey self.subnetId) ingressExpiry
    self.codec.decodeSubnetRecord "SubnetRecord does not exist" "Failed run query: "

/-- `write_records_to_local_store`: store the changelog of the records, entry `i`
at version `latest_version + i + 1`; the first failed write aborts. -/
def Player.writeRecordsToLocalStore (self : Player) (localStorePath : String)
    (latestVersion : RegistryVersion) (records : List RegistryTransportRecord) : PlayerM Unit := do
  let some changelog := Changelog.changelogOf latestVersion records | abort unwrapNone
  changelog.enum.forM fun (i, cle) => do
    let v := Changelog.entryVersion latestVersion i
    match ← self.store localStorePath v cle with
    | .ok () => pure ()
    | .error err => abort ("Writing to the file system failed: Stop.: " ++ err)

/-- `update_registry_local_store`: fetch the changes since the locally known
version and write them to the local store. -/
def Player.updateRegistryLocalStore (self : Player) : PlayerM Unit := do
  let some localStorePath := self.localStorePath
    | abort "update_registry_local_store can only be used with registry configured with local store"
  let latestVersion ← self.registry.getLatestVersion
  let now ← self.currentTime
  match ← self.getChangesSince latestVersion (now + 60 * 1000000000) with
  | .ok records => self.writeRecordsToLocalStore localStorePath latestVersion records
  | .error err => abort ("Error in get_certified_changes_since: " ++ err)

/-! ## Delivering batches -/

/-- `deliver_batches`: deliver the finalized batches, retrying while the queue is full. -/
def Player.deliverBatches (self : Player) (replayTargetHeight : Option Height) : PlayerM Height :=
  loop do
    match ← self.deliverFinalizedBatches replayTargetHeight with
    | .ok h => return some h
    | .error .queueIsFull => return none
    | .error (.ignored _ _) => abort "internal error: entered unreachable code"

/-- `deliver_extra_batch`: one batch past the finalized height carrying the extra
messages; its context comes from the finalized tip when there is a pool. -/
def Player.deliverExtraBatch (self : Player) (pool : Option ConsensusPool)
    (extra : Player → Time → List SignedIngress) :
    PlayerM (Time × Option (Height × List MessageId)) := do
  let (registryVersion, time, randomness) ← (match pool with
    | none => do
      let version ← self.registry.getLatestVersion
      let now ← self.currentTime
      pure (version, now, List.replicate 32 0)
    | some pool =>
      match pool.finalizedTip with
      | none => abort s!"Finalized block is not found at height {pool.finalizedHeight}"
      | some lastBlock =>
        pure (lastBlock.context.registryVersion, lastBlock.context.time + 1,
          self.cryptoHashableToSeed lastBlock))
  let batchNumber ← self.messageRouting.expectedBatchHeight
  let extraBatch : Batch :=
    { batchNumber, requiresFullStateHash := true, ingress := [], randomness, registryVersion, time }
  let contextTime := extraBatch.time
  let extraMsgs := extra self contextTime
  if extraMsgs.isEmpty then return (contextTime, none)
  let extraMsgIds := extraMsgs.map (·.id)
  let extraBatch := { extraBatch with ingress := extraMsgs }
  loop do
    match ← self.messageRouting.deliverBatch extraBatch with
    | .ok () => return some ()
    | .error .queueIsFull => return none
    | .error (.ignored _ _) =>
      abort s!"internal error: entered unreachable code: Unexpected error on a valid batch number {batchNumber}"
  return (contextTime, some (extraBatch.batchNumber, extraMsgIds))

/-! ## Checking catch-up packages -/

/-- `verify_latest_cup`: check the signature of the pool's catch-up package, that
its state hash is the local one, and that the registry assigns this build to it. -/
def Player.verifyLatestCup (self : Player) : PlayerM Unit := do
  let lastCupWithProto ← self.getLatestCup
  let lastCup := lastCupWithProto.cup
  -- We cannot verify the genesis CUP with this subnet's public key. And there is no state.
  if lastCup.height = 0 then return
  let protobuf := lastCupWithProto.protobuf
  match ← self.crypto.verifyCombinedThresholdSigByPublicKey protobuf.signature protobuf.content
      self.subnetId lastCup.content.block.context.registryVersion with
  | .ok () => pure ()
  | .error err => abort ("Verification of the signature on the CUP failed: " ++ err)
  if lastCup.height < (← self.stateManager.latestStateHeight) then
    -- In subnet recovery mode we persist states but do not create newer CUPs, so a
    -- checkpoint above the latest CUP means the state hashes are not compared.
    return
  match ← getStateHash self.stateManager lastCup.height with
  | none => abort "No hash for CUP found"
  | some hash =>
    if hash ≠ lastCup.content.stateHash then
      throw (.replayError (.stateDivergence lastCup.height))
  match ← lookupReplicaVersion self.registry self.subnetId lastCup.content.registryVersion with
  | some replicaVersion =>
    if replicaVersion ≠ self.replicaVersion then
      let params ← self.getLatestStateHeightAndHash
      throw (.replayError (.upgradeDetected params))
  | none => pure ()

/-- `assert_consistency_and_clean_up`: check the pool's catch-up package, then drop
the states and the validated artifacts below it. -/
def Player.assertConsistencyAndCleanUp (self : Player) : PlayerM StateParams := do
  self.verifyLatestCup
  let params ← self.getLatestStateHeightAndHash
  let some pool ← getPool | abort "no consensus_pool"
  let purgeHeight := pool.cup.cup.height
  self.stateManager.removeStatesBelow purgeHeight
  purgeValidatedBelow purgeHeight
  return params

/-! ## Restoring from a backup -/

/-- One iteration of the loop of `restore`: feed artifacts, deliver and wait for
the batches, stop at the target height, then act on the exit point. -/
def Player.restoreRound (self : Player) (backupDir : String) (targetHeight : Option Height) :
    PlayerM (Option StateParams) := do
  let result ← self.deserializeConsensusArtifacts
  let some _ ← getPool | abort unwrapNone
  let lastBatchHeight ← self.deliverBatches self.replayTargetHeight
  self.waitForState lastBatchHeight
  if targetHeight.any (· ≤ lastBatchHeight) then
    -- The target height is reached.
    return some (← self.getLatestStateHeightAndHash)
  else match result with
    | .cupHeightWasFinalized cupHeight =>
      -- The pool cache holds at most one CUP, so all batches are delivered first.
      self.insertCupAtHeight backupDir cupHeight
      let _ ← self.assertConsistencyAndCleanUp
      return none
    | .newerRegistryVersion newVersion =>
      self.updateRegistryLocalStore
      if let .error err ← self.registry.pollOnce then
        abort ("Couldn't update the registry from the local store: " ++ err)
      let latestVersion ← self.registry.getLatestVersion
      if latestVersion < newVersion then
        abort s!"The registry client couldn't be updated to version {newVersion} (highest available version is {latestVersion})"
      return none
    | .stateBehind certifiedHeight =>
      if certifiedHeight > (← self.stateManager.latestStateHeight) then
        abort "The state manager didn't catch up with the expected certified height"
      self.stateManager.removeStatesBelow certifiedHeight
      return none
    | .done => return some (← self.getLatestStateHeightAndHash)

/-- `restore`: check the initial catch-up package, then restore heights from the
backup spool until it runs out or the target height is reached. -/
def Player.restore (self : Player) (startHeight : Nat) : PlayerM StateParams := do
  let targetHeight := self.replayTargetHeight
  let some backupDir := self.backupDir | abort "No backup path found"
  if let .error err ← ask (self.backup.scan · backupDir startHeight) then
    abort ("File scanning failed: " ++ err)
  -- Assert consistent initial state
  self.verifyLatestCup
  loop (self.restoreRound backupDir targetHeight)

/-! ## Replaying a live pool -/

/-- `replay`: deliver the finalized blocks of the pool and their certifications,
then an extra batch of the caller's messages, and report the latest state.  An
upgrade detected at the starting catch-up package is tolerated. -/
def Player.replay (self : Player) (extra : Player → Time → List SignedIngress) :
    PlayerM StateParams := do
  let () ← (match (← getPool), self.certificationPool with
    | some consensusPool, some certificationPool => do
      tryCatch self.verifyLatestCup fun
        | .replayError (.upgradeDetected _) => pure ()
        | s => throw s
      let finalizedHeight := consensusPool.finalizedHeight
      let targetHeight := some (min finalizedHeight (self.replayTargetHeight.getD finalizedHeight))
      let lastBatchHeight ← self.deliverBatches targetHeight
      self.waitForState lastBatchHeight
      -- We only want to persist the checkpoint after the latest batch.
      self.stateManager.removeStatesBelow lastBatchHeight
      -- Redeliver certifications to state manager.
      certificationPool.certifiedHeights.forM fun h => do
        let some certification := certificationPool.certificationAtHeight h
          | abort s!"Missing certification at height {h}"
        self.stateManager.deliverStateCertification certification
    | _, _ => pure ())
  let (latestContextTime, extraBatchDelivery) ← self.deliverExtraBatch (← getPool) extra
  let () ← (match extraBatchDelivery with
    | some (lastBatchHeight, msgIds) => do
      self.waitForState lastBatchHeight
      self.stateManager.removeStatesBelow lastBatchHeight
      let getLatestStatus ← self.getLatestStatus
      msgIds.forM fun msgId => do
        match getLatestStatus msgId with
        | .known (.completed (.reply _)) => pure ()
        | _ => abort ("Execution of " ++ hexEncode msgId ++ " has failed")
    | none => pure ())
  -- If we are not replaying the NNS subnet, this query fails and the client answers.
  let _registryVersion ← self.getLatestRegistryVersion latestContextTime >>= fun
    | .ok version => pure version
    | .error _ => self.registry.getLatestVersion
  self.getLatestStateHeightAndHash

end IcReplay

import Mathlib.Data.List.Sort

/-!
# ic-replay - Values the Player handles

The data model of `rs/replay/src/player.rs`: heights, registry versions, state
hashes, catch-up packages, batches, the two recoverable errors of a replay, the
exit points of the backup scanner and the registry records that the changelog
writer stores.

Heights are only compared and forwarded by the Player, so they are natural
numbers.  Registry versions take part in the changelog writer's arithmetic, so
they keep the 64-bit width of the source (`u64` inside `RegistryVersion`).

Only the fields that a modelled function reads are kept: a catch-up package keeps
its block, state hash and registry version, a block its height and the time and
registry version of its context, a subnet record its replica version, and a batch
leaves out the ECDSA key and consensus responses that the Player always leaves
empty.

Main results:

- Theorem {lit}`hexEncode_inj`: the hash string that the Player reports names one
  hash.
-/

namespace IcReplay

/-! ## Heights, versions and hashes -/

/-- A block height (`ic_types::Height`). -/
abbrev Height := Nat

/-- A registry version (`ic_types::RegistryVersion`, a `u64`). -/
abbrev RegistryVersion := UInt64

/-- Nanoseconds since the Unix epoch (`ic_types::Time`). -/
abbrev Time := Nat

/-- A replica build (`ReplicaVersion`). -/
abbrev ReplicaVersion := String

/-- A subnet (`SubnetId`). -/
abbrev SubnetId := Nat

/-- An ingress message id (`MessageId`). -/
abbrev MessageId := List UInt8

/-- A 32-byte random seed (`Randomness`). -/
abbrev Randomness := List UInt8

/-- A state hash (`CryptoHashOfState`): the digest bytes. -/
structure CryptoHashOfState where
  bytes : List UInt8
  deriving DecidableEq, Repr

/-- One lowercase hexadecimal digit. -/
def hexDigit (n : Nat) : Char :=
  if n < 10 then Char.ofNat (48 + n) else Char.ofNat (87 + n)

/-- `hex::encode`: two lowercase digits per byte. -/
def hexEncode (bytes : List UInt8) : String :=
  String.mk (bytes.flatMap fun b => [hexDigit (b.toNat / 16), hexDigit (b.toNat % 16)])

example : hexEncode [0x0a, 0xff] = "0aff" := by decide

/-- Distinct hexadecimal digit values are distinct characters. -/
theorem hexDigit_inj {m n : Nat} (hm : m < 16) (hn : n < 16) (h : hexDigit m = hexDigit n) :
    m = n := by
  have hdigits : ∀ i j : Fin 16, hexDigit i = hexDigit j → i = j := by decide
  exact congrArg Fin.val (hdigits ⟨m, hm⟩ ⟨n, hn⟩ h)

/-- A byte is determined by its two digits. -/
theorem byte_eq_of_hexDigits {a b : UInt8}
    (hhigh : hexDigit (a.toNat / 16) = hexDigit (b.toNat / 16))
    (hlow : hexDigit (a.toNat % 16) = hexDigit (b.toNat % 16)) : a = b := by
  have ha : a.toNat < 256 := a.val.isLt
  have hb : b.toNat < 256 := b.val.isLt
  have h1 := hexDigit_inj (by omega) (by omega) hhigh
  have h2 := hexDigit_inj (Nat.mod_lt _ (by decide)) (Nat.mod_lt _ (by decide)) hlow
  exact UInt8.toNat.inj (by omega)

/-- The digits of `hex::encode` determine the bytes: each byte gives two. -/
theorem hexDigits_injective : Function.Injective fun bytes : List UInt8 =>
    bytes.flatMap fun b => [hexDigit (b.toNat / 16), hexDigit (b.toNat % 16)] := by
  intro a
  induction a with
  | nil => intro b h; cases b with
    | nil => rfl
    | cons y b => simp at h
  | cons x a ih => intro b h; cases b with
    | nil => simp at h
    | cons y b =>
      simp only [List.flatMap_cons, List.cons_append, List.nil_append, List.cons.injEq] at h
      rw [byte_eq_of_hexDigits h.1 h.2.1, ih h.2.2]

/-- The hash string of a report names one hash: `hex::encode` is injective. -/
theorem hexEncode_inj {a b : List UInt8} : hexEncode a = hexEncode b ↔ a = b :=
  ⟨fun h => hexDigits_injective (congrArg String.data h), congrArg hexEncode⟩

/-- The externally observable result of a replay: the height reached and the
hex-encoded hash of its state (`StateParams`). -/
abbrev StateParams := Height × String

/-- The two conditions a replay reports to its caller (`ReplayError`). -/
inductive ReplayError
  /-- Can't proceed because the state has diverged. -/
  | stateDivergence (height : Height)
  /-- Can't proceed because an upgrade was detected. -/
  | upgradeDetected (params : StateParams)
  deriving DecidableEq, Repr

/-! ## State manager answers -/

/-- A hash that is not available yet (`TransientStateHashError`). -/
inductive TransientStateHashError
  | stateNotCommittedYet (height : Height)
  | hashNotComputedYet (height : Height)
  deriving DecidableEq, Repr

/-- A hash that will never be available (`PermanentStateHashError`). -/
inductive PermanentStateHashError
  | stateRemoved (height : Height)
  | stateNotCommittedYet (height : Height)
  | stateNotFullyCertified (height : Height)
  deriving DecidableEq, Repr

/-- Why `get_state_hash_at` returned no hash (`StateHashError`). -/
inductive StateHashError
  | transient (err : TransientStateHashError)
  | permanent (err : PermanentStateHashError)
  deriving DecidableEq, Repr

/-! ## Consensus artifacts -/

/-- The part of a block's validation context the Player reads. -/
structure ValidationContext where
  registryVersion : RegistryVersion
  time : Time
  deriving DecidableEq, Repr

/-- A finalized block, with the context the extra batch is derived from. -/
structure Block where
  height : Height
  context : ValidationContext
  deriving DecidableEq, Repr

/-- The signed content of a catch-up package (`CatchUpContent`).  The registry
version that `registry_version()` reports is kept apart from the block's, so no
relation between the two is assumed. -/
structure CatchUpContent where
  block : Block
  stateHash : CryptoHashOfState
  registryVersion : RegistryVersion
  deriving DecidableEq, Repr

/-- A catch-up package (`CatchUpPackage`). -/
structure CatchUpPackage where
  content : CatchUpContent
  deriving DecidableEq, Repr

/-- The height of a catch-up package is the height of its block. -/
def CatchUpPackage.height (cup : CatchUpPackage) : Height :=
  cup.content.block.height

/-- The raw protobuf a catch-up package was decoded from: the bytes that were
signed and the combined threshold signature over them. -/
structure CatchUpPackageProtobuf where
  content : List UInt8
  signature : List UInt8
  deriving DecidableEq, Repr

/-- A catch-up package together with its original protobuf (`CUPWithOriginalProtobuf`). -/
structure CUPWithOriginalProtobuf where
  cup : CatchUpPackage
  protobuf : CatchUpPackageProtobuf
  deriving DecidableEq, Repr

/-- A state certification, passed through to the state manager unread. -/
structure Certification where
  height : Height
  signature : List UInt8
  deriving DecidableEq, Repr

/-! ## Batches and ingress -/

/-- A signed ingress message; the Player reads only its id. -/
structure SignedIngress where
  id : MessageId
  deriving DecidableEq, Repr

/-- The batch the Player builds for extra messages (`Batch`). -/
structure Batch where
  batchNumber : Height
  requiresFullStateHash : Bool
  ingress : List SignedIngress
  randomness : Randomness
  registryVersion : RegistryVersion
  time : Time
  deriving DecidableEq, Repr

/-- Why message routing refused a batch (`MessageRoutingError`). -/
inductive MessageRoutingError
  | queueIsFull
  | ignored (expectedHeight actualHeight : Height)
  deriving DecidableEq, Repr

/-- The result of executing a message (`WasmResult`). -/
inductive WasmResult
  | reply (bytes : List UInt8)
  | reject (message : String)
  deriving DecidableEq, Repr

/-- The state of an ingress message in the ingress history (`IngressState`). -/
inductive IngressState
  | received
  | completed (result : WasmResult)
  | failed (error : String)
  | processing
  | done
  deriving DecidableEq, Repr

/-- The latest status of an ingress message (`IngressStatus`). -/
inductive IngressStatus
  | known (state : IngressState)
  | unknown
  deriving DecidableEq, Repr

/-! ## Backup spool and registry records -/

/-- Where the backup scanner stopped feeding artifacts (`backup::ExitPoint`). -/
inductive ExitPoint
  /-- A new catch-up package boundary was reached at this height. -/
  | cupHeightWasFinalized (height : Height)
  /-- The backup references a registry version not known locally. -/
  | newerRegistryVersion (version : RegistryVersion)
  /-- The state manager has not caught up with this certified height. -/
  | stateBehind (height : Height)
  /-- No more artifacts remain. -/
  | done
  deriving DecidableEq, Repr

/-- A registry record as the registry canister returns it (`RegistryTransportRecord`). -/
structure RegistryTransportRecord where
  key : String
  version : RegistryVersion
  value : Option (List UInt8)
  deriving DecidableEq, Repr

/-- One key mutation of a changelog entry (`KeyMutation`). -/
structure KeyMutation where
  key : String
  value : Option (List UInt8)
  deriving DecidableEq, Repr

/-- The mutation a record contributes to the changelog. -/
def KeyMutation.ofRecord (r : RegistryTransportRecord) : KeyMutation :=
  { key := r.key, value := r.value }

/-- All mutations of one registry version (`ChangelogEntry`). -/
abbrev ChangelogEntry := List KeyMutation

/-- Consecutive changelog entries (`Changelog`). -/
abbrev Changelog := List ChangelogEntry

/-- An anonymous query to the registry canister (`UserQuery`): the method, its
payload and the expiry, which is all that varies between the Player's queries. -/
structure UserQuery where
  methodName : String
  methodPayload : List UInt8
  ingressExpiry : Time
  deriving DecidableEq, Repr

/-- The replica versions the registry has blessed (`BlessedReplicaVersions`). -/
structure BlessedReplicaVersions where
  blessedVersionIds : List ReplicaVersion
  deriving DecidableEq, Repr

/-- The registry record of a subnet (`SubnetRecord`).  The Player only returns it;
of its fields, only the subnet's replica version is kept. -/
structure SubnetRecord where
  replicaVersionId : ReplicaVersion
  deriving DecidableEq, Repr

end IcReplay

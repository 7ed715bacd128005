import IcReplay.Types

/-!
# ic-replay - The changelog built by `write_records_to_local_store`

`write_records_to_local_store` sorts the registry records by version, folds them
into a changelog and stores entry `i` at version `latest_version + i + 1`.  The
fold opens a new entry only while the changelog is shorter than the record's
version relative to `latest_version`, and it opens at most one entry per record.

The fold is written once, over what it pushes (`mutation`): the source pushes the
record's `KeyMutation`, and the analysis folds the records themselves, so that it
can say which record went into which entry.  `changelogOf_eq_map` relates the two.
-/

namespace IcReplay
namespace Changelog

variable {α β : Type}

/-! ## The fold -/

/-- `records.sort_by_key(|tr| tr.version)`: a stable sort by version. -/
def sortByVersion (records : List RegistryTransportRecord) : List RegistryTransportRecord :=
  records.mergeSort fun a b => a.version ≤ b.version

/-- `cl.last_mut().unwrap().push(m)`; `none` is the `unwrap` of an empty changelog. -/
def pushLast (m : α) : List (List α) → Option (List (List α))
  | [] => none
  | [e] => some [e ++ [m]]
  | e :: e' :: es => (pushLast m (e' :: es)).map (e :: ·)

/-- One step of the fold: open an entry when the changelog is shorter than the
record's version relative to `latestVersion`, then push the record's mutation
onto the last entry.  Version subtraction wraps, as `u64` does in a release build. -/
def pushRecord (latestVersion : RegistryVersion) (mutation : RegistryTransportRecord → α)
    (cl : List (List α)) (r : RegistryTransportRecord) : Option (List (List α)) :=
  let relVersion := (r.version - latestVersion).toNat
  pushLast (mutation r) (if cl.length < relVersion then cl ++ [[]] else cl)

/-- The changelog that `write_records_to_local_store` stores. -/
def changelogOf (latestVersion : RegistryVersion) (records : List RegistryTransportRecord) :
    Option Changelog :=
  (sortByVersion records).foldlM (pushRecord latestVersion KeyMutation.ofRecord) []

/-- `latest_version + RegistryVersion::from(i as u64 + 1)`: the version at which
entry `i` of the changelog is stored.  The addition wraps, as `u64` does in a
release build. -/
def entryVersion (latestVersion : RegistryVersion) (i : Nat) : RegistryVersion :=
  latestVersion + (i.toUInt64 + 1)

/-- The same fold over the records themselves: entry `i` lists the records whose
mutations go into entry `i` of the changelog. -/
def entriesOf (latestVersion : RegistryVersion) (records : List RegistryTransportRecord) :
    Option (List (List RegistryTransportRecord)) :=
  (sortByVersion records).foldlM (pushRecord latestVersion id) []

/-! ## Pushing onto the last entry -/

@[simp] theorem pushLast_nil (m : α) : pushLast m ([] : List (List α)) = none := rfl

@[simp] theorem pushLast_append_singleton (m : α) (cl : List (List α)) (e : List α) :
    pushLast m (cl ++ [e]) = some (cl ++ [e ++ [m]]) := by
  induction cl with
  | nil => rfl
  | cons e₀ cl ih =>
    cases cl with
    | nil => rfl
    | cons e₁ cl => simp only [List.cons_append, pushLast] at ih ⊢; simp [ih]

theorem pushLast_map (f : α → β) (m : α) (cl : List (List α)) :
    pushLast (f m) (cl.map (List.map f)) = (pushLast m cl).map (List.map (List.map f)) := by
  rcases List.eq_nil_or_concat cl with rfl | ⟨init, e, rfl⟩
  · rfl
  · simp

/-- The fold pushes `mutation r` where the record fold pushes `r`. -/
theorem pushRecord_map (latestVersion : RegistryVersion) (f : RegistryTransportRecord → α)
    (cl : List (List RegistryTransportRecord)) (r : RegistryTransportRecord) :
    pushRecord latestVersion f (cl.map (List.map f)) r =
      (pushRecord latestVersion id cl r).map (List.map (List.map f)) := by
  dsimp only [pushRecord]
  split_ifs <;> simp_all [← pushLast_map]

theorem foldlM_pushRecord_map (latestVersion : RegistryVersion) (f : RegistryTransportRecord → α)
    (rs : List RegistryTransportRecord) (cl : List (List RegistryTransportRecord)) :
    rs.foldlM (pushRecord latestVersion f) (cl.map (List.map f)) =
      (rs.foldlM (pushRecord latestVersion id) cl).map (List.map (List.map f)) := by
  induction rs generalizing cl with
  | nil => rfl
  | cons r rs ih =>
    simp only [List.foldlM_cons, pushRecord_map]
    cases pushRecord latestVersion id cl r <;> simp [ih]

/-- The changelog is the record entries with each record replaced by its mutation. -/
theorem changelogOf_eq_map (latestVersion : RegistryVersion)
    (records : List RegistryTransportRecord) :
    changelogOf latestVersion records =
      (entriesOf latestVersion records).map (List.map (List.map KeyMutation.ofRecord)) :=
  foldlM_pushRecord_map latestVersion KeyMutation.ofRecord _ []

end Changelog
end IcReplay

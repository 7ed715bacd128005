import IcReplay.Contract

/-!
# ic-replay - What `write_records_to_local_store` stores

`update_registry_local_store` hands `write_records_to_local_store` the registry
records above the local store's latest version.  It sorts them by version, folds
them into a changelog and stores entry `i` at version `latest_version + i + 1`.

The fold opens an entry only while the changelog is shorter than the record's
version relative to `latest_version`, so entry `i` never holds a version below
`latest_version + i + 1`, and holds exactly that version when the versions have
no gap.  Across a gap the entries move down to close it, and the records of one
version can be split over two entries.

Main results:
- Theorem {lit}`entriesOf_ok`: on records above `latest_version` the fold
  succeeds; its entries are non-empty, hold one version each, and concatenate to
  the records sorted by version.
- Theorem {lit}`own_of_contiguous`: without a gap, entry `i` holds version
  `latest_version + i + 1`.
- Theorem {lit}`writeRecordsToLocalStore_stores_changelog`: the calls to
  `LocalStore::store` and what each one stores.
-/

namespace IcReplay
namespace Changelog

/-! ## Versions -/

/-- A record above `latest_version` has its relative version computed exactly. -/
theorem relVersion_toNat {latest v : RegistryVersion} (h : latest < v) :
    (v - latest).toNat = v.toNat - latest.toNat :=
  UInt64.toNat_sub_of_le _ _ (Nat.le_of_lt h)

/-- The version of entry `i` does not wrap while it stays below `2^64`. -/
theorem entryVersion_toNat {latest : RegistryVersion} {i : Nat}
    (h : latest.toNat + i + 1 < UInt64.size) :
    (entryVersion latest i).toNat = latest.toNat + i + 1 := by
  show (latest.toNat + (i % UInt64.size + 1) % UInt64.size) % UInt64.size = _
  simp only [UInt64.size] at h ⊢
  omega

/-! ## The stable sort -/

theorem sortByVersion_perm (records : List RegistryTransportRecord) :
    (sortByVersion records).Perm records :=
  List.mergeSort_perm _ _

private theorem version_le_trans (a b c : RegistryTransportRecord) :
    decide (a.version ≤ b.version) = true → decide (b.version ≤ c.version) = true →
      decide (a.version ≤ c.version) = true := by
  simp only [decide_eq_true_eq]
  exact Nat.le_trans

private theorem version_le_total (a b : RegistryTransportRecord) :
    (decide (a.version ≤ b.version) || decide (b.version ≤ a.version)) = true := by
  simp only [Bool.or_eq_true, decide_eq_true_eq]
  exact Nat.le_total _ _

theorem sortByVersion_sorted (records : List RegistryTransportRecord) :
    (sortByVersion records).Pairwise fun r r' => r.version ≤ r'.version :=
  (List.sorted_mergeSort version_le_trans version_le_total records).imp of_decide_eq_true

/-- `sort_by_key` is stable: the records of one version keep their input order. -/
theorem filter_sortByVersion (records : List RegistryTransportRecord) (u : RegistryVersion) :
    (sortByVersion records).filter (·.version = u) = records.filter (·.version = u) := by
  have hsame : ∀ r ∈ records.filter (·.version = u), r.version = u := fun r hr => by
    simpa using (List.mem_filter.mp hr).2
  have hsub : (records.filter (·.version = u)).Sublist (sortByVersion records) :=
    List.sublist_mergeSort version_le_trans version_le_total
      (List.pairwise_of_forall_mem_list fun a ha b hb => by
        simp only [hsame a ha, hsame b hb, decide_eq_true_eq]; exact Nat.le_refl _)
      (List.filter_sublist _)
  have hsub' := hsub.filter (·.version = u)
  rw [List.filter_eq_self.mpr fun r hr => by simpa using hsame r hr] at hsub'
  exact (hsub'.eq_of_length ((sortByVersion_perm records).filter _).length_eq.symm).symm

/-! ## The fold -/

/-- What the fold keeps of the entries it builds from records above a version `L`:
every entry is non-empty and holds records of one version, and entry `i` holds
versions of at least `L + i + 1`. -/
structure EntriesOk (L : Nat) (entries : List (List RegistryTransportRecord)) : Prop where
  nonempty : ∀ e ∈ entries, e ≠ []
  single : ∀ e ∈ entries, ∀ r ∈ e, ∀ r' ∈ e, r.version = r'.version
  above : ∀ i (hi : i < entries.length), ∀ r ∈ entries[i], L + i + 1 ≤ r.version.toNat

namespace EntriesOk

variable {L : Nat} {cl : List (List RegistryTransportRecord)} {e : List RegistryTransportRecord}
  {r : RegistryTransportRecord}

theorem nil : EntriesOk L [] where
  nonempty _ h := nomatch h
  single _ h := nomatch h
  above _ hi := absurd hi (Nat.not_lt_zero _)

/-- The entries of `cl ++ [e]` keep `EntriesOk` when those of `cl` do and `e`
could sit at index `cl.length`. -/
theorem append_singleton_iff :
    EntriesOk L (cl ++ [e]) ↔ EntriesOk L cl ∧ e ≠ [] ∧
      (∀ r ∈ e, ∀ r' ∈ e, r.version = r'.version) ∧
      ∀ r ∈ e, L + cl.length + 1 ≤ r.version.toNat := by
  constructor
  · intro h
    refine ⟨⟨fun e' he' => h.nonempty e' (List.mem_append_left _ he'),
      fun e' he' => h.single e' (List.mem_append_left _ he'),
      fun i hi r hr => h.above i (by simp; omega) r (by rwa [List.getElem_append_left hi])⟩,
      h.nonempty e (by simp), h.single e (by simp), fun r hr => h.above cl.length (by simp) r ?_⟩
    simpa [List.getElem_append_right] using hr
  · rintro ⟨hcl, hne, hs, hb⟩
    refine ⟨fun e' he' => ?_, fun e' he' => ?_, fun i hi r hr => ?_⟩
    · rcases List.mem_append.mp he' with he' | he'
      · exact hcl.nonempty e' he'
      · rwa [List.mem_singleton.mp he']
    · rcases List.mem_append.mp he' with he' | he'
      · exact hcl.single e' he'
      · rwa [List.mem_singleton.mp he']
    · by_cases hlt : i < cl.length
      · rw [List.getElem_append_left hlt] at hr
        exact hcl.above i hlt r hr
      · obtain rfl : i = cl.length := by simp at hi; omega
        simp only [List.getElem_append_right (Nat.le_refl _), Nat.sub_self,
          List.getElem_singleton] at hr
        exact hb r hr

/-- Opening an entry for `r` at index `cl.length`. -/
theorem push_new (h : EntriesOk L cl) (hr : L + cl.length + 1 ≤ r.version.toNat) :
    EntriesOk L (cl ++ [[r]]) :=
  append_singleton_iff.mpr ⟨h, List.cons_ne_nil _ _, by simp, by simpa using hr⟩

/-- Pushing `r` onto the last entry, whose records have the version of `r`. -/
theorem push_last (h : EntriesOk L (cl ++ [e])) (hr : ∀ r' ∈ e, r'.version = r.version) :
    EntriesOk L (cl ++ [e ++ [r]]) := by
  obtain ⟨hcl, hne, -, hb⟩ := append_singleton_iff.mp h
  have hall : ∀ a ∈ e ++ [r], a.version = r.version := by simpa [or_imp, forall_and] using hr
  obtain ⟨r0, hr0⟩ := List.exists_mem_of_ne_nil e hne
  refine append_singleton_iff.mpr ⟨hcl, by simp,
    fun a ha b hb => (hall a ha).trans (hall b hb).symm, fun a ha => ?_⟩
  rw [hall a ha, ← hr r0 hr0]
  exact hb r0 hr0

/-- Entry `i` holds a record of version at least `L + i + 1`. -/
theorem exists_mem_above (h : EntriesOk L cl) {i : Nat} (hi : i < cl.length) :
    ∃ r ∈ cl[i], L + i + 1 ≤ r.version.toNat :=
  let ⟨r, hr⟩ := List.exists_mem_of_ne_nil _ (h.nonempty _ (List.getElem_mem hi))
  ⟨r, hr, h.above i hi r hr⟩

/-- The version at which entry `i` is stored does not wrap. -/
theorem entryVersion_eq {latest : RegistryVersion} (h : EntriesOk latest.toNat cl) {i : Nat}
    (hi : i < cl.length) : (entryVersion latest i).toNat = latest.toNat + i + 1 := by
  obtain ⟨r, -, hr⟩ := h.exists_mem_above hi
  have : r.version.toNat < UInt64.size := r.version.val.isLt
  exact entryVersion_toNat (by omega)

/-- `L` plus the number of entries is at most some record's version. -/
theorem exists_version_ge (h : EntriesOk L cl) (hne : cl ≠ []) :
    ∃ r ∈ cl.flatten, L + cl.length ≤ r.version.toNat := by
  have := List.length_pos.mpr hne
  obtain ⟨r, hr, hle⟩ := h.exists_mem_above (i := cl.length - 1) (by omega)
  exact ⟨r, List.mem_flatten.mpr ⟨_, List.getElem_mem _, hr⟩, by omega⟩

theorem eq_nil_of_flatten (h : EntriesOk L cl) (hflat : cl.flatten = []) : cl = [] := by
  rcases cl with _ | ⟨e, es⟩
  · rfl
  · exact absurd (List.flatten_eq_nil_iff.mp hflat e (.head _)) (h.nonempty e (.head _))

end EntriesOk

/-- One step of the fold, on records sorted by version and above `latest`: it
never hits the `unwrap` of an empty changelog, and it keeps `EntriesOk`. -/
theorem pushRecord_ok {latest : RegistryVersion} {cl : List (List RegistryTransportRecord)}
    {r : RegistryTransportRecord} (h : EntriesOk latest.toNat cl) (hr : latest < r.version)
    (hle : ∀ r' ∈ cl.flatten, r'.version ≤ r.version) :
    ∃ cl', pushRecord latest id cl r = some cl' ∧ EntriesOk latest.toNat cl' ∧
      cl'.flatten = cl.flatten ++ [r] := by
  have hr : latest.toNat < r.version.toNat := hr
  simp only [pushRecord, relVersion_toNat hr, id]
  split_ifs with hlt
  · exact ⟨_, pushLast_append_singleton .., h.push_new (by omega), by simp⟩
  · rcases List.eq_nil_or_concat cl with rfl | ⟨init, e, rfl⟩
    · simp at hlt
      omega
    simp only [List.concat_eq_append, List.length_append, List.length_singleton] at h hle hlt ⊢
    refine ⟨_, pushLast_append_singleton .., h.push_last fun r' hr' => ?_, by simp⟩
    have h1 := h.above init.length (by simp) r' (by simpa using hr')
    have h2 : r'.version.toNat ≤ r.version.toNat := hle r' (by simp [hr'])
    exact UInt64.toNat.inj (by omega)

/-- The whole fold over records sorted by version and above `latest`. -/
theorem foldlM_pushRecord_ok {latest : RegistryVersion} (s : List RegistryTransportRecord)
    {cl : List (List RegistryTransportRecord)} (h : EntriesOk latest.toNat cl)
    (hs : s.Pairwise fun r r' => r.version ≤ r'.version)
    (hnewer : ∀ r ∈ s, latest < r.version)
    (hle : ∀ r' ∈ cl.flatten, ∀ r ∈ s, r'.version ≤ r.version) :
    ∃ cl', s.foldlM (pushRecord latest id) cl = some cl' ∧ EntriesOk latest.toNat cl' ∧
      cl'.flatten = cl.flatten ++ s := by
  induction s generalizing cl with
  | nil => exact ⟨cl, rfl, h, by simp⟩
  | cons r s ih =>
    obtain ⟨hr, hs⟩ := List.pairwise_cons.mp hs
    obtain ⟨cl1, h1, hok1, hflat1⟩ :=
      pushRecord_ok h (hnewer r (.head _)) fun r' hr' => hle r' hr' r (.head _)
    obtain ⟨cl2, h2, hok2, hflat2⟩ := ih hok1 hs (fun r hr => hnewer r (.tail _ hr)) <| by
      rw [hflat1]
      intro r' hr' r'' hr''
      rcases List.mem_append.mp hr' with hr' | hr'
      · exact hle r' hr' r'' (.tail _ hr'')
      · rw [List.mem_singleton.mp hr']
        exact hr r'' hr''
    exact ⟨cl2, by simp [List.foldlM_cons, h1, h2], hok2, by simp [hflat2, hflat1]⟩

/-- Across a gap, records of one version go to two entries. -/
example : [⟨"a", 2, none⟩, ⟨"b", 2, none⟩].foldlM (pushRecord 0 id) [] =
    some [[⟨"a", 2, none⟩], [⟨"b", 2, none⟩]] := by decide

/-- On records above `latest_version` the fold succeeds, and the entries it builds
are, concatenated, the records sorted by version. -/
theorem entriesOf_ok {latest : RegistryVersion} {records : List RegistryTransportRecord}
    (hnewer : ∀ r ∈ records, latest < r.version) :
    ∃ entries, entriesOf latest records = some entries ∧ EntriesOk latest.toNat entries ∧
      entries.flatten = sortByVersion records := by
  obtain ⟨entries, h, hok, hflat⟩ := foldlM_pushRecord_ok (sortByVersion records) EntriesOk.nil
    (sortByVersion_sorted records) (fun r hr => hnewer r ((sortByVersion_perm records).subset hr))
    fun _ h => nomatch h
  exact ⟨entries, h, hok, by simpa using hflat⟩

/-! ## Versions without a gap -/

/-- The record versions are exactly `latest_version + 1, ..., latest_version + n`. -/
def VersionsContiguous (latest : RegistryVersion) (records : List RegistryTransportRecord)
    (n : Nat) : Prop :=
  ∀ v, (∃ r ∈ records, r.version.toNat = v) ↔ latest.toNat < v ∧ v ≤ latest.toNat + n

theorem VersionsContiguous.unique {latest : RegistryVersion}
    {records : List RegistryTransportRecord} {m n : Nat}
    (hm : VersionsContiguous latest records m) (hn : VersionsContiguous latest records n) :
    m = n := by
  by_contra hne
  rcases Nat.lt_or_gt_of_ne hne with h | h
  · have := ((hm _).mp ((hn (latest.toNat + n)).mpr ⟨by omega, le_rfl⟩)).2
    omega
  · have := ((hn _).mp ((hm (latest.toNat + m)).mpr ⟨by omega, le_rfl⟩)).2
    omega

section OwnVersion

variable {L : Nat} {entries : List (List RegistryTransportRecord)}
  {records : List RegistryTransportRecord}

/-- A record of the entries sits in some entry `j`. -/
theorem exists_entry_of_mem_flatten {r : RegistryTransportRecord} (hr : r ∈ entries.flatten) :
    ∃ j, ∃ hj : j < entries.length, r ∈ entries[j] := by
  obtain ⟨e, he, hre⟩ := List.mem_flatten.mp hr
  obtain ⟨j, hj, rfl⟩ := List.mem_iff_getElem.mp he
  exact ⟨j, hj, hre⟩

/-- Entries that hold their own versions have versions without a gap. -/
theorem contiguous_of_own {latest : RegistryVersion} (hok : EntriesOk latest.toNat entries)
    (hperm : entries.flatten.Perm records)
    (hown : ∀ i (hi : i < entries.length), ∀ r ∈ entries[i],
      r.version.toNat = latest.toNat + i + 1) :
    VersionsContiguous latest records entries.length := by
  intro v
  constructor
  · rintro ⟨r, hr, rfl⟩
    obtain ⟨j, hj, hrj⟩ := exists_entry_of_mem_flatten (hperm.symm.subset hr)
    have := hown j hj r hrj
    omega
  · rintro ⟨h1, h2⟩
    have hi : v - latest.toNat - 1 < entries.length := by omega
    obtain ⟨r, hr⟩ := List.exists_mem_of_ne_nil _ (hok.nonempty _ (List.getElem_mem hi))
    refine ⟨r, hperm.subset (List.mem_flatten.mpr ⟨_, List.getElem_mem hi, hr⟩), ?_⟩
    have := hown _ hi r hr
    omega

/-- Without a gap in the versions, each entry holds its own version: the fold never
opens an entry early, since each version `L + i + 1` has a record, which sorts at
entry `i` or later. -/
theorem own_of_contiguous {latest : RegistryVersion} {n : Nat}
    (hok : EntriesOk latest.toNat entries) (hperm : entries.flatten.Perm records)
    (hsorted : entries.flatten.Pairwise fun r r' => r.version ≤ r'.version)
    (hc : VersionsContiguous latest records n) :
    ∀ i (hi : i < entries.length), ∀ r ∈ entries[i],
      r.version.toNat = latest.toNat + i + 1 := by
  have hmono := List.pairwise_iff_getElem.mp (List.pairwise_flatten.mp hsorted).2
  intro i
  induction i using Nat.strong_induction_on with
  | _ i ih =>
    intro hi r hr
    have hlo := hok.above i hi r hr
    have hup := ((hc _).mp
      ⟨r, hperm.subset (List.mem_flatten.mpr ⟨_, List.getElem_mem hi, hr⟩), rfl⟩).2
    obtain ⟨r0, hr0, hv0⟩ := (hc (latest.toNat + i + 1)).mpr ⟨by omega, by omega⟩
    obtain ⟨j, hj, hr0j⟩ := exists_entry_of_mem_flatten (hperm.symm.subset hr0)
    rcases Nat.lt_trichotomy j i with hji | rfl | hij
    · have := ih j hji hj r0 hr0j
      omega
    · rw [hok.single _ (List.getElem_mem hi) r hr r0 hr0j, hv0]
    · have : r.version.toNat ≤ r0.version.toNat := hmono i j hi hj hij r hr r0 hr0j
      omega

/-- Entries holding the versions `k, k + 1, ...` are the slices of their
concatenation by version. -/
theorem filter_flatten_of_own (k : Nat)
    (hown : ∀ j (hj : j < entries.length), ∀ r ∈ entries[j], r.version.toNat = k + j)
    (i : Nat) (hi : i < entries.length) :
    entries.flatten.filter (fun r => r.version.toNat = k + i) = entries[i] := by
  induction entries generalizing k i with
  | nil => exact absurd hi (Nat.not_lt_zero _)
  | cons e es ih =>
    have hes : ∀ j (hj : j < es.length), ∀ r ∈ es[j], r.version.toNat = k + 1 + j :=
      fun j hj r hr => by have := hown (j + 1) (by simp; omega) r (by simpa using hr); omega
    have he : ∀ r ∈ e, r.version.toNat = k := fun r hr => by simpa using hown 0 (by simp) r hr
    simp only [List.flatten, List.filter_append]
    cases i with
    | zero =>
      rw [List.filter_eq_self.mpr fun r hr => by simp [he r hr],
        List.filter_eq_nil_iff.mpr fun r hr => ?_]
      · simp
      · obtain ⟨j, hj, hrj⟩ := exists_entry_of_mem_flatten hr
        have := hes j hj r hrj
        simp only [decide_eq_true_eq]
        omega
    | succ i =>
      rw [List.filter_eq_nil_iff.mpr fun r hr => by simp [he r hr], List.nil_append,
        show k + (i + 1) = k + 1 + i by omega, ih (k + 1) hes i (by simpa using hi)]
      simp

/-- Entries that hold their own versions are the records of those versions, in
input order. -/
theorem getElem_eq_filter_of_own {latest : RegistryVersion}
    (hok : EntriesOk latest.toNat entries)
    (hstable : ∀ u, entries.flatten.filter (·.version = u) = records.filter (·.version = u))
    (hown : ∀ i (hi : i < entries.length), ∀ r ∈ entries[i],
      r.version.toNat = latest.toNat + i + 1)
    (i : Nat) (hi : i < entries.length) :
    entries[i] = records.filter (·.version = entryVersion latest i) := by
  rw [← hstable, ← filter_flatten_of_own (latest.toNat + 1)
    (fun j hj r hr => by rw [hown j hj r hr]; omega) i hi]
  refine List.filter_congr fun r _ => ?_
  simp only [decide_eq_decide]
  have := hok.entryVersion_eq hi
  exact ⟨fun h => UInt64.toNat.inj (by omega), fun h => by rw [h]; omega⟩

end OwnVersion

end Changelog

/-! ## The stores -/

open Changelog

/-- With every store succeeding, `write_records_to_local_store` stores entry `i` of
its changelog at version `latest_version + i + 1`, one call per entry, in order. -/
theorem writeRecordsToLocalStore_ok {p : Player} {path : String} {latest : RegistryVersion}
    {records : List RegistryTransportRecord} {changelog : Changelog}
    (hstore : ∀ t v e, p.storeAnswer t path v e = .ok ())
    (hcl : changelogOf latest records = some changelog) (w : World) :
    p.writeRecordsToLocalStore path latest records w = .ok () { w with
      clock := w.clock + changelog.length,
      log := w.log ++ changelog.enum.map fun (i, cle) => .store (entryVersion latest i) cle } := by
  simp only [Player.writeRecordsToLocalStore, hcl]
  refine (forM_ok (fun x => .store (entryVersion latest x.1) x.2) (fun ⟨i, cle⟩ w => ?_) _
    w).trans ?_
  · rw [List.enum_length]
  · simp [Player.store, hstore, Except.isOk, Except.toBool]

/-! ## What `write_records_to_local_store` stores -/

/-- What `write_records_to_local_store` does with records above `latest_version`,
told by the entries of its changelog, each entry given as the records whose
mutations it holds. -/
structure StoresChangelog (p : Player) (path : String) (latest : RegistryVersion)
    (records : List RegistryTransportRecord) (entries : List (List RegistryTransportRecord)) :
    Prop where
  /-- The changelog holds the entries' records as mutations, each record's key with
  its value. -/
  changelog : changelogOf latest records =
    some (entries.map (List.map fun r => { key := r.key, value := r.value }))
  /-- With every store succeeding, `LocalStore::store` is called once per entry, at the
  versions `latest_version + 1, latest_version + 2, ...` in turn. -/
  stores : (∀ t v e, p.storeAnswer t path v e = .ok ()) → ∀ w,
    p.writeRecordsToLocalStore path latest records w = .ok () { w with
      clock := w.clock + entries.length,
      log := w.log ++ entries.enum.map fun (i, e) =>
        .store (entryVersion latest i) (e.map fun r => { key := r.key, value := r.value }) }
  /-- The versions `latest_version + i + 1` do not wrap. -/
  no_overflow : ∀ i < entries.length, (entryVersion latest i).toNat = latest.toNat + i + 1
  /-- `latest_version + M` is at most the largest record version. -/
  within_records : records ≠ [] →
    ∃ r ∈ records, latest.toNat + entries.length ≤ r.version.toNat
  /-- Without records nothing is stored. -/
  empty : records = [] → entries = []
  nonempty : ∀ e ∈ entries, e ≠ []
  single : ∀ e ∈ entries, ∀ r ∈ e, ∀ r' ∈ e, r.version = r'.version
  /-- Concatenated, the entries are the records sorted by version, stably. -/
  perm : entries.flatten.Perm records
  sorted : entries.flatten.Pairwise fun r r' => r.version ≤ r'.version
  stable : ∀ u, entries.flatten.filter (·.version = u) = records.filter (·.version = u)
  /-- Every record is stored at its own version iff the versions have no gap. -/
  own_iff : (∀ i (hi : i < entries.length), ∀ r ∈ entries[i],
      r.version = entryVersion latest i) ↔ ∃ n, VersionsContiguous latest records n
  /-- Without a gap, entry `i` is the records of version `latest_version + i + 1`, in
  input order. -/
  of_contiguous : ∀ n, VersionsContiguous latest records n → entries.length = n ∧
    ∀ i (hi : i < entries.length),
      entries[i] = records.filter (·.version = entryVersion latest i)

theorem writeRecordsToLocalStore_stores_changelog (p : Player) (path : String)
    (latest : RegistryVersion) (records : List RegistryTransportRecord)
    (hnewer : ∀ r ∈ records, latest < r.version) :
    ∃ entries, StoresChangelog p path latest records entries := by
  obtain ⟨entries, hentries, hok, hflat⟩ := entriesOf_ok hnewer
  have hperm : entries.flatten.Perm records := hflat ▸ sortByVersion_perm records
  have hsorted : entries.flatten.Pairwise fun r r' => r.version ≤ r'.version :=
    hflat ▸ sortByVersion_sorted records
  have hstable : ∀ u, entries.flatten.filter (·.version = u) = records.filter (·.version = u) :=
    fun u => hflat ▸ filter_sortByVersion records u
  have hown : (∀ i (hi : i < entries.length), ∀ r ∈ entries[i],
      r.version = entryVersion latest i) ↔ ∀ i (hi : i < entries.length), ∀ r ∈ entries[i],
      r.version.toNat = latest.toNat + i + 1 :=
    forall_congr' fun i => forall_congr' fun hi => forall₂_congr fun r _ =>
      ⟨fun h => h ▸ hok.entryVersion_eq hi,
        fun h => UInt64.toNat.inj (h.trans (hok.entryVersion_eq hi).symm)⟩
  have hchangelog : changelogOf latest records =
      some (entries.map (List.map fun r => { key := r.key, value := r.value })) := by
    rw [changelogOf_eq_map, hentries]
    rfl
  refine ⟨entries, hchangelog, fun hstore w => ?_, fun i => hok.entryVersion_eq, fun hne => ?_,
    fun h => hok.eq_nil_of_flatten (List.perm_nil.mp (h ▸ hperm)), hok.nonempty, hok.single,
    hperm, hsorted, hstable, ⟨fun h => ⟨_, contiguous_of_own hok hperm (hown.mp h)⟩,
      fun ⟨_, hc⟩ => hown.mpr (own_of_contiguous hok hperm hsorted hc)⟩, fun n hc => ?_⟩
  · rw [writeRecordsToLocalStore_ok hstore hchangelog, List.length_map, List.enum_map,
      List.map_map]
    rfl
  · obtain ⟨r, hr, hle⟩ :=
      hok.exists_version_ge fun h => hne (List.perm_nil.mp (h ▸ hperm).symm)
    exact ⟨r, hperm.subset hr, hle⟩
  · have hown' := own_of_contiguous hok hperm hsorted hc
    exact ⟨(contiguous_of_own hok hperm hown').unique hc,
      getElem_eq_filter_of_own hok hstable hown'⟩

/-- Three records above version 0, the two of version 2 around the one of version 1,
through a Player whose store always succeeds. -/
theorem writeRecordsToLocalStore_stores_changelog_three :
    let records : List RegistryTransportRecord :=
      [⟨"b", 2, none⟩, ⟨"a", 1, some [1]⟩, ⟨"c", 2, some [2]⟩]
    (∀ r ∈ records, (0 : RegistryVersion) < r.version) ∧
      ∃ entries, StoresChangelog
        (Player.ofServices (steadyStateManager 0 ⟨[]⟩) emptyRegistry acceptingCrypto)
        "local_store" 0 records entries :=
  ⟨by decide, writeRecordsToLocalStore_stores_changelog _ _ _ _ (by decide)⟩

end IcReplay

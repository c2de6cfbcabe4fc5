import Mathlib.Data.List.Perm.Basic
import Bip300Monitor.Backfill.Pages
import Bip300Monitor.Runtime.Convert

/-!
# Samples of the auction

`bmm_requests` (`extractors/enforcer/src/convert.rs`) converts the requests of a sample one by one,
rejects a sample in which a slot's transaction comes twice, and sorts the rest. The enforcer lists the
requests in any order; the record is to have one sample for all of them.

## What is proved

* `bmmRequests_eq_ok` — what is converted, and into what;
* `bmm_requests_canonical` — the order of the requests makes no difference, and the sample holds
  the converted requests, in order, each transaction of a slot once.
-/

namespace Bip300Monitor

open Protobuf Bip300Monitor.Convert
open Backfill (mapM_eq_ok)

/-! ### One request -/

/-- The position of a request is only for the text of an error. -/
theorem bmmRequest_position {request : Mainchain.BmmRequest} {index : ℕ} {converted : BmmRequest} :
    bmmRequest request index = .ok converted ↔ bmmRequest request 0 = .ok converted := by
  unfold bmmRequest
  split_ifs
  · simp
  · rfl

/-- The requests, converted. -/
def Converted : List Mainchain.BmmRequest → List BmmRequest → Prop :=
  List.Forall₂ fun request converted => bmmRequest request 0 = .ok converted

theorem converted_of_zipIdx {response : List Mainchain.BmmRequest} {requests : List BmmRequest} {n : ℕ} :
    List.Forall₂ (fun item converted => bmmRequest item.1 item.2 = .ok converted)
      (response.zipIdx n) requests ↔ Converted response requests := by
  unfold Converted
  induction response generalizing n requests with
  | nil => simp
  | cons request response ih =>
    rw [List.zipIdx_cons, List.forall₂_cons_left_iff, List.forall₂_cons_left_iff]
    simp only [@bmmRequest_position _ n, ih]

/-! ### Transactions of a slot -/

/-- What a sample holds once. -/
def Protobuf.BmmRequest.identity (r : BmmRequest) : ℕ × Bytes := (r.sidechainNumber, r.txid)

theorem duplicateRequest_eq_none {requests : List BmmRequest} {identities : List (ℕ × Bytes)} :
    duplicateRequest identities requests = none ↔
      (requests.map BmmRequest.identity).Nodup ∧
        ∀ r ∈ requests, BmmRequest.identity r ∉ identities := by
  induction requests generalizing identities with
  | nil => simp [duplicateRequest]
  | cons r rest ih =>
    rw [duplicateRequest, List.map_cons, List.nodup_cons, List.forall_mem_cons]
    change (if r.identity ∈ identities then _ else _) = none ↔ _
    split_ifs with hmem
    · simp [hmem]
    · rw [ih]
      simp only [List.mem_cons, not_or]
      constructor
      · rintro ⟨hnodup, hrest⟩
        refine ⟨⟨fun hr => ?_, hnodup⟩, hmem, fun other hother => (hrest other hother).2⟩
        obtain ⟨other, hother, heq⟩ := List.mem_map.mp hr
        exact (hrest other hother).1 heq
      · rintro ⟨⟨hr, hnodup⟩, -, hrest⟩
        refine ⟨hnodup, fun other hother => ⟨fun heq => hr ?_, hrest other hother⟩⟩
        exact List.mem_map.mpr ⟨other, hother, heq⟩

/-! ### The order -/

/-- By slot, then the richest bid first, then by transaction. -/
def Protobuf.BmmRequest.Precedes (left right : BmmRequest) : Prop :=
  left.sidechainNumber < right.sidechainNumber ∨
    (left.sidechainNumber = right.sidechainNumber ∧
      (right.bidSats < left.bidSats ∨ (left.bidSats = right.bidSats ∧ left.txid < right.txid)))

theorem requestLe_iff {left right : BmmRequest} :
    requestLe left right = true ↔ left.sidechainNumber < right.sidechainNumber ∨
      (left.sidechainNumber = right.sidechainNumber ∧
        (right.bidSats < left.bidSats ∨ (left.bidSats = right.bidSats ∧ left.txid ≤ right.txid))) := by
  simp [requestLe]

theorem requestLe_trans (a b c : BmmRequest) (hab : requestLe a b = true) (hbc : requestLe b c = true) :
    requestLe a c = true := by
  rw [requestLe_iff] at *
  have htxid : a.txid ≤ b.txid → b.txid ≤ c.txid → a.txid ≤ c.txid := List.le_trans
  grind

theorem requestLe_total (a b : BmmRequest) : (requestLe a b || requestLe b a) = true := by
  rw [Bool.or_eq_true, requestLe_iff, requestLe_iff]
  have htxid : a.txid ≤ b.txid ∨ b.txid ≤ a.txid := List.le_total ..
  grind

/-- The order separates the transactions of a slot. -/
theorem precedes_of_requestLe {left right : BmmRequest} (h : requestLe left right = true)
    (hne : left.identity ≠ right.identity) : left.Precedes right := by
  rw [requestLe_iff] at h
  rcases h with hslot | ⟨hslot, hbid | ⟨hbid, htxid⟩⟩
  · exact .inl hslot
  · exact .inr ⟨hslot, .inl hbid⟩
  · rcases List.le_iff_lt_or_eq.mp htxid with htxid | htxid
    · exact .inr ⟨hslot, .inr ⟨hbid, htxid⟩⟩
    · exact absurd (Prod.ext hslot htxid) hne

theorem Protobuf.BmmRequest.Precedes.asymm {left right : BmmRequest} (h : left.Precedes right) : ¬ right.Precedes left := by
  unfold BmmRequest.Precedes at *
  have htxid : left.txid < right.txid → ¬ right.txid < left.txid := List.lt_asymm
  grind

/-- The sorted requests, when no transaction of a slot comes twice. -/
theorem pairwise_precedes {requests : List BmmRequest} (h : (requests.map BmmRequest.identity).Nodup) :
    (requests.mergeSort requestLe).Pairwise BmmRequest.Precedes := by
  have hsorted := List.pairwise_mergeSort requestLe_trans requestLe_total requests
  have hperm := List.mergeSort_perm requests requestLe
  have hnodup := List.pairwise_map.mp ((hperm.map BmmRequest.identity).nodup_iff.mpr h)
  exact hsorted.imp₂ (fun _ _ => precedes_of_requestLe) hnodup

/-! ### The sample -/

/-- **What a sample is**, of what is answered. -/
theorem bmmRequests_eq_ok {previous : Bytes} {response : List Mainchain.BmmRequest}
    {snapshot : BmmRequestsSnapshot} :
    bmmRequests previous response = .ok snapshot ↔ previous.length = 32 ∧
      ∃ requests, Converted response requests ∧ (requests.map BmmRequest.identity).Nodup ∧
        snapshot = ⟨previous, requests.mergeSort requestLe⟩ := by
  have hprevious {u : Bytes} : require32Bytes previous "bmm_requests.previous_mainchain_block_hash" =
      .ok u ↔ previous.length = 32 ∧ u = previous := by
    unfold require32Bytes
    split_ifs with hlength
    · simp [hlength, eq_comm]
    · simp [hlength]
  simp only [bmmRequests, Result.bind_eq_ok, hprevious, mapM_eq_ok, converted_of_zipIdx]
  constructor
  · rintro ⟨_, ⟨hlength, rfl⟩, requests, hconverted, h⟩
    refine ⟨hlength, requests, hconverted, ?_⟩
    split at h
    · cases h
    · next hnone =>
      exact ⟨(duplicateRequest_eq_none.mp hnone).1, (Result.pure_eq_ok.mp h).symm⟩
  · rintro ⟨hlength, requests, hconverted, hnodup, rfl⟩
    refine ⟨_, ⟨hlength, rfl⟩, requests, hconverted, ?_⟩
    rw [duplicateRequest_eq_none.mpr ⟨hnodup, fun _ _ => List.not_mem_nil⟩]
    rfl

/-- The order of the answer is lost. -/
theorem bmmRequests_of_perm {previous : Bytes} {response response' : List Mainchain.BmmRequest}
    (hperm : response.Perm response') {snapshot : BmmRequestsSnapshot}
    (h : bmmRequests previous response = .ok snapshot) : bmmRequests previous response' = .ok snapshot := by
  obtain ⟨hlength, requests, hconverted, hnodup, rfl⟩ := bmmRequests_eq_ok.mp h
  obtain ⟨requests', hconverted', hperm'⟩ := List.perm_comp_forall₂ hperm.symm hconverted
  have hnodup' := (hperm'.map BmmRequest.identity).nodup_iff.mpr hnodup
  refine bmmRequests_eq_ok.mpr ⟨hlength, requests', hconverted', hnodup', ?_⟩
  congr 1
  refine List.Perm.eq_of_pairwise (fun a b _ _ hab hba => absurd hba hab.asymm) (pairwise_precedes hnodup)
    (pairwise_precedes hnodup') ?_
  exact (List.mergeSort_perm ..).trans (hperm'.symm.trans (List.mergeSort_perm ..).symm)

/-- **A sample does not depend on the order of the answer.** Answers that hold the same requests in
any order give the same sample, or none; and the sample holds the converted requests, sorted, with no
transaction of a slot twice. -/
theorem bmm_requests_canonical (previous : Bytes) (response response' : List Mainchain.BmmRequest)
    (hperm : response.Perm response') :
    (∀ snapshot, bmmRequests previous response = .ok snapshot ↔
      bmmRequests previous response' = .ok snapshot) ∧
    ∀ snapshot, bmmRequests previous response = .ok snapshot →
      snapshot.requests.Pairwise BmmRequest.Precedes ∧
      (∃ requests, Converted response requests ∧ snapshot.requests.Perm requests) ∧
      (snapshot.requests.map BmmRequest.identity).Nodup := by
  refine ⟨fun snapshot => ⟨bmmRequests_of_perm hperm, bmmRequests_of_perm hperm.symm⟩,
    fun snapshot h => ?_⟩
  obtain ⟨-, requests, hconverted, hnodup, rfl⟩ := bmmRequests_eq_ok.mp h
  have hsorted := List.mergeSort_perm requests requestLe
  exact ⟨pairwise_precedes hnodup, ⟨requests, hconverted, hsorted⟩,
    (hsorted.map BmmRequest.identity).nodup_iff.mpr hnodup⟩

namespace TwoBids

/-- 32 times the byte with these digits. -/
def hash (digits : String) : Option Mainchain.HexText := some ⟨some (String.join (List.replicate 32 digits))⟩

def parent : Bytes := List.replicate 32 1

/-- Two bids for slot 9. -/
def bids : List Mainchain.BmmRequest := [⟨9, hash "22", hash "33", 10⟩, ⟨9, hash "55", hash "66", 20⟩]

/-- The same, converted. -/
def converted : List BmmRequest :=
  [⟨9, List.replicate 32 0x22, List.replicate 32 0x33, 10⟩,
    ⟨9, List.replicate 32 0x55, List.replicate 32 0x66, 20⟩]

end TwoBids

open TwoBids in
/-- The two bids make one sample, either way round. -/
theorem bmm_requests_canonical_twoBids :
    ∃ snapshot, bmmRequests parent bids = .ok snapshot ∧
      bmmRequests parent bids.reverse = .ok snapshot ∧
      snapshot.requests.Pairwise BmmRequest.Precedes := by
  have hconverted : Converted bids converted :=
    .cons (by decide +kernel) (.cons (by decide +kernel) .nil)
  have hnodup : (converted.map BmmRequest.identity).Nodup := by decide
  obtain ⟨hsame, hsorted⟩ := bmm_requests_canonical parent bids bids.reverse
    bids.reverse_perm.symm
  have h := bmmRequests_eq_ok.mpr ⟨(List.length_replicate : parent.length = 32), converted, hconverted,
    hnodup, rfl⟩
  exact ⟨_, h, (hsame _).mp h, (hsorted _ h).1⟩

end Bip300Monitor

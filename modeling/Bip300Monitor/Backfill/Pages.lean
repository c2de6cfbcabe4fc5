import Bip300Monitor.Backfill.Engine
import Bip300Monitor.Backfill.Descent
import Bip300Monitor.Foundations.PairedLists

/-!
# Pages

What a page that passes `verify_page_with` is, and what recording it leaves behind.

## What is proved

* `verifyPageWith_eq_ok` — the headers of a verified page begin at the cursor and are each
  the parent of the one before, one height down;
* `verify_page_exact` — and every such page of at most the requested length is verified;
* `IsPage.descends` — when such a page is recorded and its facts are honest, recorded facts
  lead from the cursor down to its last block.
-/

namespace Bip300Monitor

open Protobuf Transaction

/-- The block of a header. -/
def Protobuf.BlockHeader.block (h : BlockHeader) : Block := ⟨h.hash, h.height⟩

namespace Backfill

/-- The second header is that of the first one's parent. -/
def Follows (newer older : BlockHeader) : Prop :=
  newer.previousHash = older.hash ∧ newer.height = older.height + 1

/-- Headers from a cursor downwards, newest first. -/
structure IsPage (cursor : Block) (hs : List BlockHeader) : Prop where
  head : hs.head?.map BlockHeader.block = some cursor
  chain : hs.IsChain Follows

variable {cursor : Block} {hs : List BlockHeader} {h : BlockHeader}

/-- Heights go down one by one. -/
theorem IsPage.height (hp : IsPage cursor hs) {i : ℕ} (hi : hs[i]? = some h) :
    h.height + i = cursor.height := by
  induction i generalizing h with
  | zero =>
    have hhead : hs.head? = some h := by rw [List.head?_eq_getElem?, hi]
    have hcursor := hp.head
    rw [hhead] at hcursor
    cases hcursor
    rfl
  | succ i ih =>
    have hlt : i + 1 < hs.length := (List.getElem?_eq_some_iff.mp hi).1
    obtain ⟨h', hh'⟩ : ∃ h', hs[i]? = some h' :=
      ⟨_, List.getElem?_eq_getElem (Nat.lt_of_succ_lt hlt)⟩
    have hfollows : Follows h' h := by
      rw [List.getElem?_eq_some_iff] at hi hh'
      obtain ⟨_, rfl⟩ := hi
      obtain ⟨_, rfl⟩ := hh'
      exact List.isChain_iff_getElem.mp hp.chain i hlt
    have hprev := ih hh'
    have := hfollows.2
    omega

theorem IsPage.height_le (hp : IsPage cursor hs) (hh : h ∈ hs) : h.height ≤ cursor.height := by
  obtain ⟨i, hi⟩ := List.mem_iff_getElem?.mp hh
  have := hp.height hi
  omega

/-- The last height of a page. -/
theorem IsPage.height_last (hp : IsPage cursor hs) (hlast : hs.getLast? = some h) :
    h.height + hs.length = cursor.height + 1 := by
  rw [List.getLast?_eq_getElem?] at hlast
  have hheight := hp.height hlast
  have hlt := (List.getElem?_eq_some_iff.mp hlast).1
  omega

/-- The beginning of a page is a page. -/
theorem IsPage.take (hp : IsPage cursor hs) (i : ℕ) : IsPage cursor (hs.take (i + 1)) where
  head := by
    have := hp.head
    cases hs with
    | nil => exact this
    | cons h hs => exact this
  chain := hp.chain.take (i + 1)

/-! ### Verified pages -/

theorem mapM_eq_ok {α β : Type} {f : α → Result β} {as : List α} {bs : List β} :
    as.mapM f = .ok bs ↔ List.Forall₂ (fun a b => f a = .ok b) as bs := by
  induction as generalizing bs with
  | nil =>
    rw [List.mapM_nil, Result.pure_eq_ok, List.forall₂_nil_left_iff, eq_comm]
  | cons a as ih =>
    simp only [List.mapM_cons, Result.bind_eq_ok, Result.pure_eq_ok, ih]
    constructor
    · rintro ⟨b, hb, bs', hbs, rfl⟩
      exact .cons hb hbs
    · intro hall
      cases hall with
      | cons hb hbs => exact ⟨_, hb, _, hbs, rfl⟩

/-- What the loop of `verify_page_with` checks of two headers: heights saturate. -/
def FollowsSaturating (newer older : BlockHeader) : Prop :=
  newer.previousHash = older.hash ∧ newer.height = min (older.height + 1) maxU32

variable {P : Type} {stream : HistoryStream P}

theorem verifyLinks_eq_ok {payload : P} {rest : List P}
    (hv : verifyLinks stream (payload :: rest) = .ok ()) (hh : stream.header payload = .ok h) :
    ∃ hs, List.Forall₂ (fun p h => stream.header p = .ok h) (payload :: rest) (h :: hs) ∧
      (h :: hs).IsChain FollowsSaturating := by
  induction rest generalizing payload h with
  | nil => exact ⟨[], .cons hh .nil, List.isChain_singleton h⟩
  | cons older rest ih =>
    simp only [verifyLinks, Result.bind_eq_ok, ensure_eq_ok] at hv
    obtain ⟨newer, hnewer, header, hheader, _, hlink, hrest⟩ := hv
    obtain rfl : newer = h := Except.ok.inj (hnewer.symm.trans hh)
    obtain ⟨hs, hall, hchain⟩ := ih hrest hheader
    exact ⟨header :: hs, .cons hh hall, List.isChain_cons_cons.mpr ⟨hlink, hchain⟩⟩

/-- A chain with saturating heights whose last height is as far down as the chain is long
did not saturate. -/
theorem follows_of_saturating {last : BlockHeader} {hs : List BlockHeader}
    (hchain : (h :: hs).IsChain FollowsSaturating) (hlast : (h :: hs).getLast? = some last) :
    h.height ≤ last.height + hs.length ∧
      (h.height = last.height + hs.length → (h :: hs).IsChain Follows) := by
  induction hs generalizing h with
  | nil =>
    cases hlast
    exact ⟨le_rfl, fun _ => List.isChain_singleton h⟩
  | cons h' hs ih =>
    obtain ⟨⟨hprev, hheight⟩, hrest⟩ := List.isChain_cons_cons.mp hchain
    obtain ⟨hle, hexact⟩ := ih hrest (by simpa using hlast)
    have hstep : h.height ≤ h'.height + 1 := hheight.trans_le (min_le_left _ _)
    rw [List.length_cons]
    refine ⟨by omega, fun heq => List.isChain_cons_cons.mpr ⟨⟨hprev, by omega⟩, hexact (by omega)⟩⟩

theorem checkedSub_eq_some {a b c : ℕ} : checkedSub a b = some c ↔ b ≤ a ∧ c = a - b := by
  unfold checkedSub
  split_ifs with h
  · simp [h, eq_comm]
  · simp [h]

/-- **What a verified page is.** -/
theorem verifyPageWith_eq_ok {payloads : List P} {requested : ℕ}
    (hv : verifyPageWith stream payloads cursor requested = .ok ()) :
    payloads.length ≤ requested ∧
      ∃ hs, List.Forall₂ (fun p h => stream.header p = .ok h) payloads hs ∧ IsPage cursor hs := by
  simp only [verifyPageWith, Result.bind_eq_ok, expect_eq_ok, ensure_eq_ok] at hv
  obtain ⟨first, hfirst, _, hlen, newest, hnewest, _, ⟨hhash, hheight⟩, _, hlinks, lastPayload,
    hlastPayload, oldest, holdest, expected, hexpected, hoeq⟩ := hv
  refine ⟨hlen, ?_⟩
  split_ifs at hfirst
  obtain ⟨rest, rfl⟩ := List.head?_eq_some_iff.mp hfirst
  obtain ⟨hs, hall, hchain⟩ := verifyLinks_eq_ok hlinks hnewest
  have hlast : (newest :: hs).getLast? = some oldest := by
    obtain ⟨x, hx, hxo⟩ := PairedLists.exists_getLast hall hlastPayload
    rw [hx, Except.ok.inj (hxo.symm.trans holdest)]
  obtain ⟨hle, heq⟩ := checkedSub_eq_some.mp hexpected
  have hlength : rest.length = hs.length := by simpa using hall.length_eq
  rw [List.length_cons] at hle heq
  refine ⟨newest :: hs, hall, ?_, (follows_of_saturating hchain hlast).2 (by omega)⟩
  simp [BlockHeader.block, hhash, hheight]

/-- What `verify_page_with` is to accept: blocks from the cursor down, each the parent of the one
before it. -/
structure WellFormedPage (cursor : Block) (requested : ℕ) (hs : List BlockHeader) : Prop where
  nonempty : hs ≠ []
  length : hs.length ≤ requested
  hash : hs.head?.map (·.hash) = some cursor.hash
  height : ∀ (i : ℕ) h, hs[i]? = some h → (h.height : ℤ) = cursor.height - i
  link : ∀ (i : ℕ) newer older, hs[i]? = some newer → hs[i + 1]? = some older →
    newer.previousHash = older.hash

theorem IsPage.wellFormed {requested : ℕ} (hp : IsPage cursor hs) (hlen : hs.length ≤ requested) :
    WellFormedPage cursor requested hs where
  nonempty hnil := by
    have hhead := hp.head
    rw [hnil] at hhead
    cases hhead
  length := hlen
  hash := by
    obtain ⟨h, hh, hblock⟩ := Option.map_eq_some_iff.mp hp.head
    rw [hh, ← hblock]
    rfl
  height i h hi := by
    have := hp.height hi
    omega
  link i newer older hnewer holder := by
    obtain ⟨hlt, rfl⟩ := List.getElem?_eq_some_iff.mp holder
    obtain ⟨_, rfl⟩ := List.getElem?_eq_some_iff.mp hnewer
    exact (List.isChain_iff_getElem.mp hp.chain i hlt).1

theorem WellFormedPage.isPage {requested : ℕ} (hp : WellFormedPage cursor requested hs) :
    IsPage cursor hs where
  head := by
    obtain ⟨h, hh, hhash⟩ := Option.map_eq_some_iff.mp hp.hash
    have hheight := hp.height 0 h (by rw [← List.head?_eq_getElem?, hh])
    rw [hh, Option.map_some, BlockHeader.block, hhash]
    congr 2
    omega
  chain := by
    refine List.isChain_iff_getElem.mpr fun i hlt => ?_
    have hnewer := List.getElem?_eq_getElem (Nat.lt_of_succ_lt hlt)
    have holder := List.getElem?_eq_getElem hlt
    have hheight := hp.height i _ hnewer
    have hheight' := hp.height (i + 1) _ holder
    exact ⟨hp.link i _ _ hnewer holder, by push_cast at hheight'; omega⟩

theorem verifyLinks_ok {payloads : List P}
    (hall : List.Forall₂ (fun p h => stream.header p = .ok h) payloads hs)
    (hchain : hs.IsChain FollowsSaturating) : verifyLinks stream payloads = .ok () := by
  induction hall with
  | nil => rfl
  | @cons newer h payloads hs hnewer hrest ih =>
    cases hrest with
    | nil => rfl
    | @cons older h' payloads hs holder hrest =>
      obtain ⟨hlink, hchain⟩ := List.isChain_cons_cons.mp hchain
      simp only [verifyLinks, Result.bind_eq_ok, ensure_eq_ok]
      exact ⟨h, hnewer, h', holder, (), hlink, ih hchain⟩

/-- Heights that fit do not saturate. -/
theorem IsPage.saturating (hp : IsPage cursor hs) (hcursor : cursor.height ≤ maxU32) :
    hs.IsChain FollowsSaturating := by
  refine List.isChain_iff_getElem.mpr fun i hlt => ?_
  obtain ⟨hprevious, hheight⟩ := List.isChain_iff_getElem.mp hp.chain i hlt
  have hle := (hp.height_le (List.getElem_mem (Nat.lt_of_succ_lt hlt))).trans hcursor
  exact ⟨hprevious, by omega⟩

/-- **A page is verified exactly if it is well formed**, at heights of 32 bits. -/
theorem verify_page_exact (stream : HistoryStream P) (payloads : List P) (hs : List BlockHeader)
    (cursor : Block) (requested : ℕ)
    (hall : List.Forall₂ (fun p h => stream.header p = .ok h) payloads hs)
    (hcursor : cursor.height ≤ maxU32) :
    verifyPageWith stream payloads cursor requested = .ok () ↔ WellFormedPage cursor requested hs := by
  constructor
  · intro hv
    obtain ⟨hlen, hs', hall', hpage⟩ := verifyPageWith_eq_ok hv
    have hsame : hs' = hs := by
      have hmap := mapM_eq_ok.mpr hall'
      rw [mapM_eq_ok.mpr hall] at hmap
      exact (Except.ok.inj hmap).symm
    rw [hsame] at hpage
    exact hpage.wellFormed (hall.length_eq ▸ hlen)
  · intro hp
    have hpage := hp.isPage
    have hlen := hall.length_eq
    cases hall with
    | nil => exact absurd rfl hp.nonempty
    | @cons first h rest hs hfirst hrest =>
      have hlinks := verifyLinks_ok (.cons hfirst hrest) (hpage.saturating hcursor)
      have holdest := List.getLast?_eq_some_getLast (List.cons_ne_nil first rest)
      obtain ⟨last, hlast, hheader⟩ :=
        PairedLists.exists_getLast (R := fun p h => stream.header p = .ok h) (.cons hfirst hrest) holdest
      have hheight := hpage.height_last hlast
      have hrequested := hp.length
      have hblock : h.block = cursor := Option.some.inj hpage.head
      rw [List.length_cons] at hheight hrequested
      simp only [verifyPageWith, Result.bind_eq_ok, expect_eq_ok, ensure_eq_ok]
      refine ⟨first, by rw [if_neg (by omega)]; rfl, (), by rw [hlen]; exact hp.length, h, hfirst, (),
        ?_, (), hlinks, _, holdest, last, hheader, _, checkedSub_eq_some.mpr ⟨?_, rfl⟩, ?_⟩
      · rw [← hblock]
        exact ⟨rfl, rfl⟩
      · rw [hlen, List.length_cons]
        omega
      · rw [hlen, List.length_cons]
        omega

namespace LowestPage

/-- The page that ends at the genesis block. -/
def headers : List BlockHeader := [⟨[2], [1], 1, [], [], 0⟩, ⟨[1], [0], 0, [], [], 0⟩]

def payloads : List (Option EnforcerEvent) :=
  headers.map fun header => some (.blockConnected ⟨some header, 9, none, []⟩)

end LowestPage

open LowestPage in
/-- A page may end at genesis, and go no further. -/
theorem verify_page_exact_genesis :
    verifyPageWith (BlockHistory ⟨9, "a", 0⟩) payloads ⟨[2], 1⟩ 2 = .ok () ∧
      WellFormedPage ⟨[2], 1⟩ 2 headers := by
  have hiff := verify_page_exact (BlockHistory ⟨9, "a", 0⟩) payloads headers ⟨[2], 1⟩ 2
    (.cons rfl (.cons rfl .nil)) (by decide)
  have hpage : IsPage ⟨[2], 1⟩ headers := ⟨rfl, by simp [headers, Follows]⟩
  have hwell := hpage.wellFormed (Nat.le_refl 2)
  exact ⟨hiff.mpr hwell, hwell⟩

/-! ### Recorded pages -/

/-- The event is the envelope of a block with this header, in the stream's scope. -/
structure Carries (scope : HistoryScope) (event : Event) (h : BlockHeader) : Prop where
  anchor : event.observedAtBlock = some (.atHeight h.hash h.height)
  previous : previousHash event = some h.previousHash
  kind : ∀ f, facts event = .ok f →
    f.kind = scope.stream.kind ∧ (scope.sidechain = none → f.sidechain = none)

/-- The header tells its block's height and parent truly. -/
def Tells (hdr : Headers) (h : BlockHeader) : Prop :=
  hdr.height h.hash = h.height ∧ hdr.previousHash h.hash = h.previousHash

/-- A fact is about the block its event is anchored to. -/
theorem facts_anchor {event : Event} {f : Facts} (hf : facts event = .ok f) :
    f.blockHash = event.observedAtBlock.map (·.hash) ∧ f.height = event.anchorHeight := by
  have hnarrow {x y : Option ℕ} (h : Result.transpose (x.map (narrow maxHeight)) = .ok y) : y = x := by
    rcases Result.transpose_map_eq_ok.mp h with ⟨rfl, rfl⟩ | ⟨a, b, rfl, hab, rfl⟩
    · rfl
    · rw [(narrow_eq_ok.mp hab).2]
  have hheight {x y : Option ℕ} (h : Result.transpose (x.map heightToI32) = .ok y) : y = x := by
    rcases Result.transpose_map_eq_ok.mp h with ⟨rfl, rfl⟩ | ⟨a, b, rfl, hab, rfl⟩
    · rfl
    · rw [(heightToI32_eq_ok.mp hab).2]
  unfold facts at hf
  split at hf
  · cases hf
  · obtain ⟨height, hh, hf⟩ := Result.bind_eq_ok.mp hf
    rw [← Result.pure_eq_ok.mp hf]
    exact ⟨rfl, hnarrow hh⟩
  · cases hf
  · obtain ⟨sidechain, -, hf⟩ := Result.bind_eq_ok.mp hf
    obtain ⟨height, hh, hf⟩ := Result.bind_eq_ok.mp hf
    rw [← Result.pure_eq_ok.mp hf]
    exact ⟨rfl, hheight hh⟩
  · cases hf

section
variable [Digests] {store : Store} {scope : HistoryScope} {event : Event} {row : EventRow}

/-- A block of the stream is recorded in its scope. -/
theorem Carries.recordedAs (hc : Carries scope event h)
    (hr : RecordedAs store scope.sidechain scope.sidechainInstanceId event row) :
    row.isBlock (store.key scope) h.hash ∧ row.height = some h.height ∧
      row.previousHash = some h.previousHash := by
  obtain ⟨f, payload, inst, hf, -, hinst, rfl⟩ := hr
  obtain ⟨hhash, hheight⟩ := facts_anchor hf
  obtain ⟨hkind, hside⟩ := hc.kind f hf
  have hscope : f.sidechain = scope.sidechain ∧ inst = scope.sidechainInstanceId := by
    obtain ⟨stream, sidechain, instanceId⟩ := scope
    cases hinst with
    | global h => exact ⟨h, rfl⟩
    | explicit h => exact ⟨h, rfl⟩
    | current i h =>
      rw [hside rfl] at h
      cases h
  refine ⟨⟨⟨rfl, rfl, rfl, hkind, hscope.1, hscope.2⟩, ?_⟩, ?_, hc.previous⟩
  · change f.blockHash = _
    rw [hhash, hc.anchor]
    rfl
  · change f.height = _
    rw [hheight, Event.anchorHeight, hc.anchor]
    rfl

variable {events : List Event} {hdr : Headers} {s u : Db} {n : ℕ}

/-- A recorded page keeps the facts honest when its blocks are told truly. -/
theorem insertPage_honest (hi : insertPage store events scope s = .ok (n, u))
    (hs : s.Honest hdr (store.key scope))
    (hevents : ∀ event ∈ events, ∃ h, Carries scope event h ∧ Tells hdr h) :
    u.Honest hdr (store.key scope) := by
  intro e he hash hb
  obtain ⟨first, v, hsv, hall⟩ := insertPage_inv hi
  rcases insertAll_new hall he with hev | ⟨event, hmem, row, hrow, hrowEq⟩
  · exact hs e (hsv.events ▸ hev) hash hb
  · obtain ⟨h, hcarries, hheight, hprevious⟩ := hevents event hmem
    obtain ⟨hrb, hrh, hrp⟩ := hcarries.recordedAs hrow
    rw [hrowEq] at hb ⊢
    obtain rfl : hash = h.hash := Option.some.inj (hb.2.symm.trans hrb.2)
    rw [hheight, hprevious]
    exact ⟨hrh, hrp⟩

/-- A recorded page has a fact about each of its blocks. -/
theorem insertPage_records (hi : insertPage store events scope s = .ok (n, u))
    (hu : u.Honest hdr (store.key scope)) (hevent : event ∈ events) (hc : Carries scope event h)
    (ht : Tells hdr h) :
    ∃ e ∈ u.events, e.isBlock (store.key scope) h.hash ∧ e.height = some h.height ∧
      e.previousHash = some h.previousHash := by
  obtain ⟨first, v, -, hall⟩ := insertPage_inv hi
  obtain ⟨row, hrow, e, he, hid⟩ := insertAll_records hall hevent
  obtain ⟨⟨hscope, hhash⟩, -, -⟩ := hc.recordedAs hrow
  have hb : e.isBlock (store.key scope) h.hash := by
    obtain ⟨⟨h₁, h₂, h₃, h₄, h₅, h₆⟩, hhash', -⟩ := hid
    obtain ⟨g₁, g₂, g₃, g₄, g₅, g₆⟩ := hscope
    exact ⟨⟨h₁.trans g₁, h₂.trans g₂, h₃.trans g₃, h₄.trans g₄, h₅.trans g₅, h₆.trans g₆⟩,
      hhash'.trans hhash⟩
  obtain ⟨hh, hp⟩ := hu e he _ hb
  rw [ht.1] at hh
  rw [ht.2] at hp
  exact ⟨e, he, hb, hh, hp⟩

end

/-- **A recorded page is a descent** from its cursor to its last block. -/
theorem IsPage.descends {db : Db} {k : ScopeKey} (hp : IsPage cursor hs)
    (hfacts : ∀ h ∈ hs, ∃ e ∈ db.events, e.isBlock k h.hash ∧ e.height = some h.height ∧
      e.previousHash = some h.previousHash) {last : BlockHeader}
    (hlast : hs.getLast? = some last) : db.Descends k cursor last.block := by
  induction hs generalizing cursor with
  | nil => cases hlast
  | cons h hs ih =>
    have hcursor : h.block = cursor := Option.some.inj hp.head
    cases hs with
    | nil =>
      cases hlast
      rw [← hcursor]
      exact .refl _
    | cons h' hs =>
      obtain ⟨⟨hprev, hheight⟩, hrest⟩ := List.isChain_cons_cons.mp hp.chain
      have hd : db.Descends k h'.block last.block :=
        ih ⟨rfl, hrest⟩ (fun x hx => hfacts x (List.mem_cons_of_mem _ hx)) (by simpa using hlast)
      obtain ⟨e, he, hb, hh, hprevious⟩ := hfacts h List.mem_cons_self
      rw [← hcursor, BlockHeader.block, hheight]
      rw [hheight] at hh
      rw [hprev] at hprevious
      exact .step he hb hh hprevious hd

end Backfill

end Bip300Monitor

import Bip300Monitor.Backfill.Pages
import Bip300Monitor.Runtime.NodeClient

/-!
# Walks of the node history

The import of the node's blocks fetches page after page, each from the parent of the block that the
page before it ended with; the pages of a walk may be of any size, and the calls of the import that
fetch them may fail and start again in between. A page is accepted as `verify_page_with` does, whole
or cut at a certified block.

## What is proved

* `HeaderOf.cumulative`, `below_of_follows` — the accumulated work of a block is that of its parent
  and its own;
* `total_work` — along linked headers the work sums up;
* `walk_telescopes` — so it does over every walk, down to the genesis block.
-/

namespace Bip300Monitor.Node

open Protobuf Resumption Backfill

/-! ### Work along links -/

variable {chain : Chain} {h newer older : BlockHeader}

/-- **The accumulated work of a block** is what is below it and its own. -/
theorem Chain.HeaderOf.cumulative (hh : chain.HeaderOf h) :
    leNat h.cumulativeWork = (chain.below h.hash).toNat + leNat h.blockWork := by
  have hle : chain.below h.hash ≤ chain.work h.hash := BitVec.le_of_lt hh.below_lt
  rw [hh.cumulativeWork, hh.blockWork, leNat_toLeBytes, leNat_toLeBytes,
    BitVec.toNat_sub_of_le hle]
  have hnat : (chain.below h.hash).toNat ≤ (chain.work h.hash).toNat := BitVec.le_def.mp hle
  omega

/-- Below a block is what its parent has accumulated. -/
theorem Chain.HeaderOf.below_of_follows (hh : chain.HeaderOf newer) (hf : Follows newer older) :
    chain.below newer.hash = chain.work older.hash := by
  have hne : newer.height ≠ 0 := by
    rw [hf.2]
    exact Nat.succ_ne_zero _
  obtain ⟨hprevious, -⟩ := hh.previousHash hne
  rw [Chain.below, if_neg (hh.height ▸ hne), ← hprevious, hf.1]

/-- The step from parent to child, as both encode it. -/
theorem Chain.HeaderOf.adds (hnewer : chain.HeaderOf newer) (holder : chain.HeaderOf older)
    (hf : Follows newer older) :
    leNat newer.cumulativeWork = leNat older.cumulativeWork + leNat newer.blockWork := by
  rw [hnewer.cumulative, hnewer.below_of_follows hf, holder.cumulativeWork, leNat_toLeBytes]

/-- What is below the block: nothing below the genesis block, else what its parent has
accumulated. -/
theorem Chain.HeaderOf.below (hh : chain.HeaderOf h) :
    (h.height = 0 → (chain.below h.hash).toNat = 0) ∧
      (h.height ≠ 0 → (chain.below h.hash).toNat = (chain.work h.previousHash).toNat) := by
  constructor
  · intro hzero
    rw [Chain.below, if_pos (hh.height ▸ hzero)]
    rfl
  · intro hne
    rw [Chain.below, if_neg (hh.height ▸ hne), (hh.previousHash hne).1]

/-- **Linked headers sum up**: what the newest has accumulated is what is below the oldest and the
work of them all. -/
theorem total_work {hs : List BlockHeader} {tip oldest : BlockHeader}
    (hheaders : ∀ h ∈ hs, chain.HeaderOf h) (hchain : hs.IsChain Follows)
    (htip : hs.head? = some tip) (holdest : hs.getLast? = some oldest) :
    leNat tip.cumulativeWork =
      (chain.below oldest.hash).toNat + (hs.map fun h => leNat h.blockWork).sum := by
  induction hs generalizing tip with
  | nil => cases htip
  | cons h hs ih =>
    obtain rfl := Option.some.inj htip
    have hh := hheaders h List.mem_cons_self
    cases hs with
    | nil =>
      obtain rfl := Option.some.inj holdest
      simpa using hh.cumulative
    | cons h' hs =>
      obtain ⟨hf, hrest⟩ := List.isChain_cons_cons.mp hchain
      have hheaders' : ∀ x ∈ h' :: hs, chain.HeaderOf x := fun x hx =>
        hheaders x (List.mem_cons_of_mem h hx)
      have hsum := ih hheaders' hrest rfl (by simpa using holdest)
      rw [hh.adds (hheaders' h' List.mem_cons_self) hf, hsum]
      simp only [List.map_cons, List.sum_cons]
      omega

/-! ### Walks -/

section
variable [BlockCodec]

/-- A page that the engine accepts at a cursor, and the cursor after it. -/
structure AcceptedPage (chain : Chain) (history : HistoryStream MainchainBlock) (cursor : Block)
    (page : List MainchainBlock) (next : Option Block) : Prop where
  accepted : ∃ requested blocks index oldest header completesCycle,
    Results chain.Answers (fetch cursor.hash requested) blocks ∧
    verifyPageWith history blocks cursor requested = .ok () ∧
    page = blocks.take (index + 1) ∧ page.getLast? = some oldest ∧
    history.header oldest = .ok header ∧ nextCursor completesCycle header = .ok next

/-- The pages of a walk down from a cursor, each at the cursor after the page before it. -/
inductive Walk (chain : Chain) (history : HistoryStream MainchainBlock) :
    Block → List (List MainchainBlock) → Prop
  | last {cursor : Block} {page : List MainchainBlock} {next : Option Block}
      (hpage : AcceptedPage chain history cursor page next) : Walk chain history cursor [page]
  | page {cursor next : Block} {page : List MainchainBlock} {pages : List (List MainchainBlock)}
      (hpage : AcceptedPage chain history cursor page (some next))
      (hpages : Walk chain history next pages) : Walk chain history cursor (page :: pages)

/-- The work along the blocks of a walk from a cursor. -/
structure Telescopes (chain : Chain) (cursor : Block) (blocks : List MainchainBlock)
    (hs : List BlockHeader) : Prop where
  headers : List.Forall₂ (fun b h => b.header = some h) blocks hs
  /-- Heights step by one along the links from a block to its parent. -/
  links : IsPage cursor hs
  adds : hs.IsChain fun child parent =>
    leNat child.cumulativeWork = leNat parent.cumulativeWork + leNat child.blockWork
  /-- The work of a block is the proof in its raw header, in 32 bytes, and so is what it has
  accumulated. -/
  encoded : List.Forall₂ (fun b h => h.blockWork.length = 32 ∧ h.cumulativeWork.length = 32 ∧
    leNat h.blockWork = (proofWork b).toNat ∧
    leNat h.cumulativeWork = (chain.work h.hash).toNat) blocks hs
  /-- From the newest block down to what is below the oldest. -/
  total : ∃ tip oldest below, hs.head? = some tip ∧ hs.getLast? = some oldest ∧
    leNat tip.cumulativeWork = below + (blocks.map fun b => (proofWork b).toNat).sum ∧
    (oldest.height = 0 → below = 0) ∧
    (oldest.height ≠ 0 → below = (chain.work oldest.previousHash).toNat)

variable {activation : ℕ} {activationHash : Option Bytes} {cursor : Block}
  {page : List MainchainBlock} {next : Option Block}

/-- An accepted page has the headers of its blocks, down from the cursor to the block whose parent is
the next cursor. -/
theorem AcceptedPage.headers
    (hp : AcceptedPage chain (NodeHistory activation activationHash) cursor page next) :
    (∀ b ∈ page, chain.BlockOf b) ∧ ∃ hs, List.Forall₂ (fun b h => b.header = some h) page hs ∧
      IsPage cursor hs ∧ ∃ oldest, hs.getLast? = some oldest ∧
        ∀ n, next = some n → oldest.previousHash = n.hash ∧ oldest.height = n.height + 1 := by
  obtain ⟨requested, blocks, index, oldest, header, completesCycle, hfetch, hverify, rfl, holdest,
    hheader, hnext⟩ := hp.accepted
  obtain ⟨-, hs, hall, hpage⟩ := verifyPageWith_eq_ok hverify
  refine ⟨fun b hb => fetch_results hfetch b (List.mem_of_mem_take hb), hs.take (index + 1), ?_,
    hpage.take index, header, ?_, fun n hn => ?_⟩
  · exact List.forall₂_take (index + 1) (hall.imp fun _ _ h => expect_eq_ok.mp h)
  · obtain ⟨h, hlast, hh⟩ := PairedLists.exists_getLast (List.forall₂_take (index + 1) hall) holdest
    rw [hlast, Except.ok.inj (hh.symm.trans hheader)]
  · subst hn
    unfold nextCursor at hnext
    split_ifs at hnext
    · cases hnext
    · simp only [Result.bind_eq_ok, expect_eq_ok, checkedSub_eq_some, Result.pure_eq_ok,
        Option.some.injEq] at hnext
      obtain ⟨height, ⟨hpos, rfl⟩, rfl⟩ := hnext
      exact ⟨rfl, by simp only; omega⟩

omit [BlockCodec] in
/-- Pages that join are a page. -/
theorem isPage_append {hs hs' : List BlockHeader} {oldest : BlockHeader} {n : Block}
    (h : IsPage cursor hs) (h' : IsPage n hs') (hlast : hs.getLast? = some oldest)
    (hjoin : oldest.previousHash = n.hash ∧ oldest.height = n.height + 1) :
    IsPage cursor (hs ++ hs') where
  head := by
    have hhead := h.head
    cases hs with
    | nil => cases hlast
    | cons h hs => exact hhead
  chain := by
    refine List.isChain_append.mpr ⟨h.chain, h'.chain, fun x hx y hy => ?_⟩
    obtain rfl := Option.some.inj (hlast.symm.trans hx)
    have hhead := h'.head
    rw [hy] at hhead
    obtain rfl := Option.some.inj hhead
    exact hjoin

/-- **The blocks of a walk** are blocks of the chain, linked through all of its pages. -/
theorem Walk.headers {pages : List (List MainchainBlock)}
    (hw : Walk chain (NodeHistory activation activationHash) cursor pages) :
    (∀ b ∈ pages.flatten, chain.BlockOf b) ∧
      ∃ hs, List.Forall₂ (fun b h => b.header = some h) pages.flatten hs ∧ IsPage cursor hs := by
  induction hw with
  | last hpage =>
    obtain ⟨hblocks, hs, hall, hlinks, -⟩ := hpage.headers
    rw [List.flatten_singleton]
    exact ⟨hblocks, hs, hall, hlinks⟩
  | page hpage _ ih =>
    obtain ⟨hblocks, hs, hall, hlinks, oldest, hlast, hjoin⟩ := hpage.headers
    obtain ⟨hblocks', hs', hall', hlinks'⟩ := ih
    rw [List.flatten_cons]
    refine ⟨fun b hb => ?_, hs ++ hs', List.rel_append hall hall',
      isPage_append hlinks hlinks' hlast (hjoin _ rfl)⟩
    rcases List.mem_append.mp hb with hb | hb
    · exact hblocks b hb
    · exact hblocks' b hb

/-- **The work of a walk telescopes**, over any number of pages. -/
theorem walk_telescopes {pages : List (List MainchainBlock)}
    (hw : Walk chain (NodeHistory activation activationHash) cursor pages) :
    ∃ hs, Telescopes chain cursor pages.flatten hs := by
  obtain ⟨hblocks, hs, hall, hlinks⟩ := hw.headers
  -- each header is that of its block
  have hpairs : List.Forall₂ (fun b h => chain.HeaderOf h ∧ h.blockWork = toLeBytes (proofWork b))
      pages.flatten hs := by
    refine List.forall₂_iff_get.mpr ⟨hall.length_eq, fun i hi hi' => ?_⟩
    obtain ⟨h, hh, hof, hwork⟩ := hblocks _ (List.get_mem pages.flatten ⟨i, hi⟩)
    have heq := (List.forall₂_iff_get.mp hall).2 i hi hi'
    obtain rfl := Option.some.inj (hh.symm.trans heq)
    exact ⟨hof, hwork⟩
  have hheaders : ∀ h ∈ hs, chain.HeaderOf h := by
    intro h hh
    obtain ⟨b, -, hof, -⟩ := PairedLists.exists_mem hpairs.flip hh
    exact hof
  have hworks : (hs.map fun h => leNat h.blockWork) =
      pages.flatten.map fun b => (proofWork b).toNat := by
    have hmap : List.Forall₂ Eq (hs.map fun h => leNat h.blockWork)
        (pages.flatten.map fun b => (proofWork b).toNat) := by
      rw [List.forall₂_map_left_iff, List.forall₂_map_right_iff]
      refine hpairs.flip.imp fun h b hpair => ?_
      rw [hpair.2, leNat_toLeBytes]
    rwa [List.forall₂_eq_eq_eq] at hmap
  refine ⟨hs, hall, hlinks, ?_, hpairs.imp fun b h hpair => ?_, ?_⟩
  · refine List.IsChain.imp_of_mem_imp (fun child parent hc hp hf => ?_) hlinks.chain
    exact (hheaders child hc).adds (hheaders parent hp) hf
  · obtain ⟨hof, hwork⟩ := hpair
    rw [hwork, hof.cumulativeWork, leNat_toLeBytes, leNat_toLeBytes]
    exact ⟨toLeBytes_length _, toLeBytes_length _, rfl, rfl⟩
  · obtain ⟨tip, htip, -⟩ := Option.map_eq_some_iff.mp hlinks.head
    have hne : hs ≠ [] := by
      rintro rfl
      cases htip
    have holdest : hs.getLast? = some (hs.getLast hne) := List.getLast?_eq_some_getLast hne
    have hof := hheaders _ (List.getLast_mem hne)
    refine ⟨tip, hs.getLast hne, _, htip, holdest, ?_, hof.below⟩
    rw [total_work hheaders hlinks.chain htip holdest, hworks]

end

/-! ### Two pages -/

namespace TwoPages

/-- The first block of the mainchain, as the node serializes it. -/
def genesisText : String :=
  "0100000000000000000000000000000000000000000000000000000000000000000000" ++
  "003ba3edfd7a7b12b27ac72c3e67768f617fc81bc3888a51323a9fb8aa4b1e5e4a29ab" ++
  "5f49ffff001d1dac2b7c01010000000100000000000000000000000000000000000000" ++
  "00000000000000000000000000ffffffff4d04ffff001d0104455468652054696d6573" ++
  "2030332f4a616e2f32303039204368616e63656c6c6f72206f6e206272696e6b206f66" ++
  "207365636f6e64206261696c6f757420666f722062616e6b73ffffffff0100f2052a01" ++
  "000000434104678afdb0fe5548271967f1a67130b7105cd6a828e03909a67962e0ea1f" ++
  "61deb649f6bc3f4cef38c4f35504e51ec112de5c384df7ba0b8d578a4c702b6bf11d5f" ++
  "ac00000000"

/-- And the second. -/
def childText : String :=
  "010000006fe28c0ab6f1b372c1a6a246ae63f74f931e8365e15a089c68d61900000000" ++
  "00982051fd1e4ba744bbbe680e1fee14677ba1a3c3540bf7b1cdb606e857233e0e61bc" ++
  "6649ffff001d01e3629901010000000100000000000000000000000000000000000000" ++
  "00000000000000000000000000ffffffff0704ffff001d0104ffffffff0100f2052a01" ++
  "00000043410496b538e853519c726a2c91e61ec11600ae1390813a627c66fb8be7947b" ++
  "e63c52da7589379515d4e0a604f8141781e62294721166bf621e73a82cbf2342c858ee" ++
  "ac00000000"

def genesisHash : Bytes := bytes32 0x000000000019d6689c085ae165831e934ff763ae46a2a6c172b3f1b60a8ce26f

def childHash : Bytes := bytes32 0x00000000839a8e6886ab5951d76f411475428afc90947ee320161bbf18eb6048

/-- The bytes of a serialized block. -/
def rawBytes (text : String) : Bytes := (Convert.hexDecode text).toOption.getD []

/-- What is asked of the two blocks: each has the work of the lowest difficulty. -/
@[reducible] def codec : BlockCodec where
  deserialize bytes :=
    if bytes = rawBytes genesisText then
      some ⟨genesisHash, bytes32 0, 1231006505, true, true, 0x100010001⟩
    else if bytes = rawBytes childText then
      some ⟨childHash, genesisHash, 1231469665, true, true, 0x100010001⟩
    else none

def reported : Chain where
  height hash := if hash = childHash then 1 else 0
  previousHash hash := if hash = childHash then genesisHash else bytes32 0
  work hash := if hash = childHash then 0x200020002 else 0x100010001

/-- What the node answers of the two blocks. -/
def answer : (e : Op) → e.Resp
  | .getblockheader hash =>
    if hash = childHash then .ok ⟨some (hexEncode childHash), some 1, some (hexEncode genesisHash),
      some (hexEncode (bytes32 0x200020002)), some 1231469665⟩
    else .ok ⟨some (hexEncode genesisHash), some 0, none, some (hexEncode (bytes32 0x100010001)),
      some 1231006505⟩
  | .getblock hash => .ok (if hash = childHash then some childText else some genesisText)

def child : MainchainBlock :=
  ⟨some ⟨childHash, genesisHash, 1, toLeBytes 0x100010001, toLeBytes 0x200020002, 1231469665⟩,
    rawBytes childText⟩

def genesis : MainchainBlock :=
  ⟨some ⟨genesisHash, bytes32 0, 0, toLeBytes 0x100010001, toLeBytes 0x100010001, 1231006505⟩,
    rawBytes genesisText⟩

theorem answers : ∀ e, reported.Answers e (answer e) := by
  rintro (hash | hash)
  · by_cases h : hash = childHash
    · simp only [answer, h, if_true]
      intro hash' hhash
      obtain rfl : childHash = hash' := Except.ok.inj (Eq.trans (by decide +kernel) hhash)
      refine ⟨fun w hw => ?_, fun n hn => ?_, fun p hp => ?_⟩
      · exact Except.ok.inj (hw.symm.trans (by decide +kernel))
      · exact (Option.some.inj hn).symm
      · exact Except.ok.inj (hp.symm.trans (by decide +kernel))
    · simp only [answer, h, if_false]
      intro hash' hhash
      obtain rfl : genesisHash = hash' := Except.ok.inj (Eq.trans (by decide +kernel) hhash)
      refine ⟨fun w hw => ?_, fun n hn => ?_, fun p hp => ?_⟩
      · exact Except.ok.inj (hw.symm.trans (by decide +kernel))
      · exact (Option.some.inj hn).symm
      · cases hp
  · trivial

end TwoPages

/-- The first two blocks of the mainchain, in two pages. -/
theorem walk_telescopes_twoPages :
    @Walk TwoPages.codec TwoPages.reported (NodeHistory 0 none) ⟨TwoPages.childHash, 1⟩
        [[TwoPages.child], [TwoPages.genesis]] ∧
      ∃ hs, @Telescopes TwoPages.codec TwoPages.reported ⟨TwoPages.childHash, 1⟩
        [TwoPages.child, TwoPages.genesis] hs := by
  let _ := TwoPages.codec
  have hnewer : Results TwoPages.reported.Answers (fetch TwoPages.childHash 1)
      [TwoPages.child] :=
    results_answered TwoPages.answers (by decide +kernel)
  have hgenesis : Results TwoPages.reported.Answers (fetch TwoPages.genesisHash 1)
      [TwoPages.genesis] :=
    results_answered TwoPages.answers (by decide +kernel)
  have hfirst : AcceptedPage TwoPages.reported (NodeHistory 0 none) ⟨TwoPages.childHash, 1⟩
      [TwoPages.child] (some ⟨TwoPages.genesisHash, 0⟩) :=
    ⟨1, _, 0, _, _, false, hnewer, by decide +kernel, rfl, rfl, rfl, rfl⟩
  have hlast : AcceptedPage TwoPages.reported (NodeHistory 0 none) ⟨TwoPages.genesisHash, 0⟩
      [TwoPages.genesis] none :=
    ⟨1, _, 0, _, _, true, hgenesis, by decide +kernel, rfl, rfl, rfl, rfl⟩
  have hw := Walk.page hfirst (.last hlast)
  exact ⟨hw, walk_telescopes hw⟩

end Bip300Monitor.Node

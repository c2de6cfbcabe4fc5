import Bip300Monitor.Runtime.Gaps

/-!
# What the boundaries tell

A consumer of the dataset has the `mainchain_transition` events only: the transitions that the stream
delivered, and the boundaries, each with the block that its gap starts at and the header that closes it.
Whatever lies outside of the gaps it takes for complete. This module reads the record as the consumer
does, over the runs of `Monitoring`.

## What is proved

* `Monitoring.step_entries` — a step records at most one entry, which begins where the follower was;
* `gaps_cover` — the record tells of every transition since the first boundary, and no gap starts after
  what was recorded before it, exactly in the runs that end no subscription while the tip it would go on
  from is ahead of what is recorded;
* `not_gaps_cover_ahead` — after a poll that is faster than the stream, the gap starts too late.
-/

namespace Bip300Monitor

open Protobuf Runs Following

namespace Mainchain

/-- A reader learns of the transition from the entry: it is the one that is reported, or it came after the
tip that the gap starts at and before the header was read. -/
def Entry.Tells (feed : Feed) (transition : ℕ) (entry : Entry) : Prop :=
  entry.Genuine feed ∧ entry.stretch.1 ≤ transition ∧ transition < entry.stretch.2

/-- **What the boundaries are for**: a recorded entry tells of every transition since the first boundary,
or the subscription or the next boundary will; and no entry begins after what was recorded before it. -/
structure Monitoring.Covered (s : Monitoring) : Prop where
  told : ∀ start ∈ firstBoundary s.entries, ∀ transition < s.feed.now, start ≤ transition →
    (∃ entry ∈ s.entries, entry.Tells s.feed transition) ∨
      ∃ next ∈ s.process.next s.lastTip, next ≤ transition
  starts : ∀ newer entry older, s.entries = newer ++ entry :: older → older ≠ [] →
    entry.stretch.1 ≤ reach (older.map Entry.stretch)

section
variable {s t : Monitoring} {a : Action}

/-- What is told is accounted for. -/
theorem Monitoring.Covered.accounted (hs : s.Covered) : s.follower.Accounted := by
  intro start hstart transition hlt hle
  rcases hs.told start hstart transition hlt hle with ⟨entry, hentry, -, hlo, hhi⟩ | hnext
  · exact .inl ⟨entry.stretch, List.mem_map_of_mem hentry, hlo, hhi⟩
  · exact .inr hnext

/-- A sound follower has been told of every transition since the first boundary. -/
theorem Monitoring.told_of_sound (hgenuine : s.Genuine) (hf : s.follower.Sound) {start transition : ℕ}
    (hstart : start ∈ firstBoundary s.entries) (hlt : transition < s.feed.now)
    (hle : start ≤ transition) :
    (∃ entry ∈ s.entries, entry.Tells s.feed transition) ∨
      ∃ next ∈ s.process.next s.lastTip, next ≤ transition := by
  rcases hf.accounted start hstart transition hlt hle with ⟨stretch, hstretch, hlo, hhi⟩ | hnext
  · obtain ⟨entry, hentry, rfl⟩ := List.mem_map.mp hstretch
    exact .inl ⟨entry, hentry, hgenuine.entries entry hentry, hlo, hhi⟩
  · exact .inr hnext

/-- A worker's step records at most one entry, which begins where `monitor` was. -/
theorem Workers.step_entry {feed : Feed} {w w' : Workers} {written : Written} {b : WorkerAction}
    (h : w.step feed b = some (w', written)) :
    (∀ entry, written ≠ .transition entry) ∨
      ∃ entry, written = .transition entry ∧ ∀ next ∈ w.next, entry.stretch.1 = next := by
  cases Workers.step_moves h with
  | quiet _ hwritten _ _ => exact .inl hwritten
  | boundary _ hphase _ =>
    refine .inr ⟨_, rfl, fun next hnext => ?_⟩
    rw [Workers.next, hphase] at hnext
    simp [Entry.stretch, Option.mem_def.mp hnext]
  | message _ hphase _ =>
    refine .inr ⟨_, rfl, fun next hnext => ?_⟩
    rw [Workers.next, hphase] at hnext
    exact Option.some.inj hnext
  | ends _ _ _ => exact .inl fun _ hwritten => by cases hwritten

/-- **A step records at most one entry**, which begins where the follower was. -/
theorem Monitoring.step_entries (h : s.step a = some t) :
    t.entries = s.entries ∨
      ∃ entry, t.entries = entry :: s.entries ∧ ∀ next ∈ s.follower.next, entry.stretch.1 = next := by
  cases a with
  | work b =>
    simp only [Monitoring.step] at h
    split at h
    · next w hprocess =>
      obtain ⟨⟨w', written⟩, hstep, rfl⟩ := Option.map_eq_some_iff.mp h
      rcases Workers.step_entry hstep with hwritten | ⟨entry, rfl, hbegins⟩
      · cases written with
        | nothing => exact .inl rfl
        | lastTip tip => exact .inl rfl
        | transition entry => exact absurd rfl (hwritten entry)
      · refine .inr ⟨entry, rfl, fun next hnext => hbegins next ?_⟩
        simpa [Monitoring.follower, Process.next, hprocess] using hnext
    · cases h
  | move _ =>
    cases h
    exact .inl rfl
  | stop =>
    cases h
    exact .inl rfl
  | _ =>
    simp only [Monitoring.step] at h
    split at h
    · cases h
      exact .inl rfl
    · cases h

/-- The next entry begins within the record. -/
theorem Monitoring.Covered.starts_step (hgenuine : s.Genuine) (hf : s.follower.Sound) (hs : s.Covered)
    (h : s.step a = some t) {newer older : List Entry} {entry : Entry}
    (hentries : t.entries = newer ++ entry :: older) (holder : older ≠ []) :
    entry.stretch.1 ≤ reach (older.map Entry.stretch) := by
  rcases Monitoring.step_entries h with hsame | ⟨new, hnew, hbegins⟩
  · exact hs.starts newer entry older (hsame.symm.trans hentries) holder
  · rw [hnew] at hentries
    rcases List.cons_eq_append_iff.mp hentries with ⟨-, hfirst⟩ | ⟨newer', -, hlater⟩
    · obtain ⟨rfl, rfl⟩ := List.cons.inj hfirst
      obtain ⟨next, hnext, hreach⟩ := hf.next (hgenuine.start_iff.mpr holder)
      rw [hbegins next hnext]
      exact hreach
    · exact hs.starts newer' entry older hlater holder

/-- **A step keeps it**, if it ends no subscription that is behind. -/
theorem Monitoring.covered_step (hgenuine : s.Genuine) (hf : s.follower.Sound) (hs : s.Covered)
    (hcaught : s.CaughtUp a) (h : s.step a = some t) : t.Covered where
  told _ hstart _ hlt hle := Monitoring.told_of_sound (Monitoring.genuine_step hgenuine h)
    (Monitoring.sound_step hgenuine hf hcaught h) hstart hlt hle
  starts _ _ _ hentries holder := hs.starts_step hgenuine hf h hentries holder

theorem Monitoring.covered_init (origin : Option BlockHeaderInfo) : (Monitoring.init origin).Covered where
  told _ hstart := by cases hstart
  starts newer _ _ hentries := by cases newer <;> cases hentries

/-- **The boundaries cover what was not delivered.** The record tells of each transition since the first
boundary, by a live one or by a boundary whose gap starts at a tip before it and whose header was read
after it, unless the subscription or the next boundary will; and no gap starts after what was recorded
before it. That is so at every point of a run exactly when no subscription ends while the tip that the
next one goes on from is of a transition that the record has not reached. -/
theorem gaps_cover (origin : Option BlockHeaderInfo) (as : List Action) (s : Monitoring)
    (h : run Monitoring.step (Monitoring.init origin) as = some s) :
    (∀ bs t, bs <+: as → run Monitoring.step (Monitoring.init origin) bs = some t → t.Covered) ↔
      Along Monitoring.step Monitoring.CaughtUp (Monitoring.init origin) as := by
  have hkeep : ∀ (s : Monitoring) a t, s.Genuine ∧ s.follower.Sound ∧ s.Covered → s.CaughtUp a →
      s.step a = some t → t.Genuine ∧ t.follower.Sound ∧ t.Covered := by
    rintro s a t ⟨hgenuine, hf, hcovered⟩ hcaught hstep
    exact ⟨Monitoring.genuine_step hgenuine hstep, Monitoring.sound_step hgenuine hf hcaught hstep,
      Monitoring.covered_step hgenuine hf hcovered hcaught hstep⟩
  have hneeds : ∀ (s : Monitoring) a t, s.Genuine ∧ s.follower.Sound ∧ s.Covered → s.step a = some t →
      t.Covered → s.CaughtUp a := by
    rintro s a t ⟨hgenuine, hf, -⟩ hstep hcovered
    exact Monitoring.caughtUp_of_accounted hgenuine hf hstep hcovered.accounted
  exact forall_prefix_iff (fun _ hs => hs.2.2) hkeep hneeds
    ⟨.init origin, Monitoring.sound_init origin, Monitoring.covered_init origin⟩ h

end

/-! ### A restart, and a stream that breaks -/

namespace OneBlock

/-- The block is delivered, the process ends, and another block is connected before it starts again. -/
def restarted : List Action :=
  startup ++ [.move move, .work .message, .work .recordTransition, .work (.reconcileTip true),
    .work .recordReconciled, .work .publishReconciled, .stop,
    .move ⟨⟨some (some (.connectBlock (some next) (some ⟨none, []⟩)))⟩, some next⟩] ++ startup

/-- The stream is silent, the poll sees the block, and then the stream breaks. -/
def polled : List Action :=
  startup ++ [.move move, .work (.readTip true), .work .observe, .work (.announce true),
    .work .streamEnds, .work .resubscribe, .work (.subscriptionBoundary true), .work .recordBoundary]

end OneBlock

/-- The process restarts, and the gap of its boundary is the block that was connected meanwhile. -/
theorem gaps_cover_restarted :
    ∃ s, run Monitoring.step (Monitoring.init (some OneBlock.origin)) OneBlock.restarted = some s ∧
      s.entries.map Entry.stretch = [(1, 2), (0, 1), (0, 0)] ∧
      ∀ bs t, bs <+: OneBlock.restarted →
        run Monitoring.step (Monitoring.init (some OneBlock.origin)) bs = some t → t.Covered := by
  have hrun : ((run Monitoring.step (Monitoring.init (some OneBlock.origin)) OneBlock.restarted).filter
      fun s => s.entries.map Entry.stretch = [(1, 2), (0, 1), (0, 0)]).isSome := by
    decide +kernel
  have hcaught : Along Monitoring.step Monitoring.CaughtUp (Monitoring.init (some OneBlock.origin))
      OneBlock.restarted := by
    decide +kernel
  obtain ⟨s, hs⟩ := Option.isSome_iff_exists.mp hrun
  obtain ⟨hs, hentries⟩ := Option.filter_eq_some_iff.mp hs
  exact ⟨s, hs, of_decide_eq_true hentries, (gaps_cover _ _ s hs).mpr hcaught⟩

/-- **A poll ahead of the stream loses a transition**: the gap of the next boundary starts after it, no
entry tells of it, and none will. -/
theorem not_gaps_cover_ahead :
    ∃ s, run Monitoring.step (Monitoring.init (some OneBlock.origin)) OneBlock.polled = some s ∧
      s.entries.map Entry.stretch = [(1, 1), (0, 0)] ∧ ¬ s.Covered := by
  have hrun : ((run Monitoring.step (Monitoring.init (some OneBlock.origin)) OneBlock.polled).filter
      fun s => s.entries.map Entry.stretch = [(1, 1), (0, 0)] ∧ ¬ s.follower.Accounted).isSome := by
    decide +kernel
  obtain ⟨s, hs⟩ := Option.isSome_iff_exists.mp hrun
  obtain ⟨hs, hlost⟩ := Option.filter_eq_some_iff.mp hs
  obtain ⟨hentries, hlost⟩ := of_decide_eq_true hlost
  exact ⟨s, hs, hentries, fun hcovered => hlost hcovered.accounted⟩

end Mainchain

end Bip300Monitor

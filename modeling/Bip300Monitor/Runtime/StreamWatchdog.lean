import Bip300Monitor.Foundations.Runs
import Bip300Monitor.Foundations.Watchdog
import Bip300Monitor.Runtime.Recordings

/-!
# The watchdog of a stream

`forward_stream` (`extractors/enforcer/src/runtime.rs`) publishes the events of a slot one by one, and
fails when the tip of the mainchain moves on while the stream is silent.

## The model

A trace is what the branches of `select!`, and the publications between them, come to, each with the
reading of the clock. Any branch may be found ready; the order in which `select!` tries them rules some
traces out. Several tips that are sent between two looks at the channel are one change.

## What is proved

* `ForwardStream.step_watchdog` — what a step does to the watchdog of the stream;
* `ForwardStream.step_inv` — it has a deadline only with a tip, and none beyond the timeout;
* `forward_stream_watchdog` — when the watchdog is armed, and what a report of it says.
-/

namespace Bip300Monitor

open Protobuf Runs Watchdogs

/-! ### The model -/

/-- The digits after the point, `places` of them at most, without zeros at the end. -/
def fractionDigits : ℕ → ℕ → String
  | 0, _ => ""
  | places + 1, fraction =>
    if fraction = 0 then ""
    else toString (fraction / 10 ^ places) ++ fractionDigits places (fraction % 10 ^ places)

/-- How `Duration` is printed with `{:?}`, from its nanoseconds. -/
def durationDebug (nanos : ℕ) : String :=
  let decimal (places : ℕ) := toString (nanos / 10 ^ places) ++
    (if nanos % 10 ^ places = 0 then "" else "." ++ fractionDigits places (nanos % 10 ^ places))
  if 10 ^ 9 ≤ nanos then decimal 9 ++ "s"
  else if 10 ^ 6 ≤ nanos then decimal 6 ++ "ms"
  else if 10 ^ 3 ≤ nanos then decimal 3 ++ "µs"
  else toString nanos ++ "ns"

/-- Where `forward_stream` is. -/
inductive ForwardStreamAt where
  /-- In `select!`. -/
  | waiting
  | publishing (event : Event)
  | returned (result : Result Unit)
  /-- "a stream stall deadline has an observed tip" did not hold. -/
  | panicked
  deriving DecidableEq

/-- `forward_stream`, with the last reading of the clock. -/
structure ForwardStream where
  at' : ForwardStreamAt
  now : ℕ
  liveEvents : ℕ
  checkedLiveEvents : ℕ
  stalledTip : Option ObservedBlock
  stallDeadline : Option ℕ

/-- What `forward_stream` has waited for. -/
inductive ForwardStreamBranch where
  | shutdown
  | tipChanged (tip : ObservedBlock)
  | tipsClosed
  /-- `wait_for_stream_stall` is over. -/
  | stalled
  /-- An item of the stream, and what the clock of the wall says to the envelope. -/
  | next (item : Option (Result Mainchain.SubscribeEventsResponse)) (observedAt : Result ℕ)
  | published (result : Result Unit)

/-- When it waited until, and for what. -/
structure ForwardStreamAction where
  now : ℕ
  branch : ForwardStreamBranch

/-- An event has been forwarded. -/
def ForwardStreamAction.forwards (a : ForwardStreamAction) : Bool :=
  match a.branch with
  | .published (.ok ()) => true
  | _ => false

namespace ForwardStream

/-- What `forward_stream` starts with. -/
def start (now : ℕ) : ForwardStream := ⟨.waiting, now, 0, 0, none, none⟩

variable (sidechain stallTimeout : ℕ)

/-- The report of a stall. -/
def stallReport (tip : ObservedBlock) : Failure :=
  .bail ("sidechain " ++ toString sidechain ++ " event stream delivered no event for " ++
    durationDebug stallTimeout ++ " after the mainchain tip advanced to " ++ hexEncode tip.hash)

/-- A changed tip. -/
def tipChanged (s : ForwardStream) (tip : ObservedBlock) : ForwardStream :=
  let s := if s.liveEvents = s.checkedLiveEvents then
      { s with
        stalledTip := some tip
        stallDeadline := some (s.stallDeadline.getD (s.now + stallTimeout)) }
    else
      { s with
        stalledTip := none
        stallDeadline := none }
  { s with checkedLiveEvents := s.liveEvents }

/-- What a stall comes to, which is reported with the stored tip. -/
def stalledAt (s : ForwardStream) : ForwardStreamAt :=
  match s.stalledTip with
  | some tip => .returned (.error (stallReport sidechain stallTimeout tip))
  | none => .panicked

/-- A stall: the sleep is over, once its deadline has come. -/
def stall (s : ForwardStream) : Option ForwardStream :=
  match s.stallDeadline with
  | none => none
  | some deadline =>
    if s.now < deadline then none
    else some { s with at' := stalledAt sidechain stallTimeout s }

/-- An item of the stream. -/
def next (s : ForwardStream) (observedAt : Result ℕ) :
    Option (Result Mainchain.SubscribeEventsResponse) → ForwardStream
  | some (.ok response) =>
    match liveEvent sidechain response observedAt with
    | .ok event => { s with at' := .publishing event }
    | .error error => { s with at' := .returned (.error error) }
  | some (.error error) =>
    { s with at' := .returned (.error (error.context
        ("receiving a live event for sidechain " ++ toString sidechain))) }
  | none =>
    { s with at' := .returned (.error (.bail
        ("sidechain " ++ toString sidechain ++ " event stream ended unexpectedly"))) }

/-- A publication that is over. -/
def published (s : ForwardStream) : Result Unit → ForwardStream
  | .ok () =>
    { s with
      at' := .waiting
      liveEvents := min (s.liveEvents + 1) maxU64
      stalledTip := none
      stallDeadline := none }
  | .error error =>
    { s with at' := .returned (.error (error.context
        ("forwarding a live event for sidechain " ++ toString sidechain))) }

/-- What `forward_stream` does with what it has waited for; `none` when it does not wait for that. -/
def take (s : ForwardStream) (branch : ForwardStreamBranch) : Option ForwardStream :=
  match s.at', branch with
  | .waiting, .shutdown => some { s with at' := .returned (.ok ()) }
  | .waiting, .tipChanged tip => some (tipChanged stallTimeout s tip)
  | .waiting, .tipsClosed =>
    some { s with at' := .returned (.error (.bail ("mainchain tip observer stopped while sidechain " ++
      toString sidechain ++ " was running"))) }
  | .waiting, .stalled => stall sidechain stallTimeout s
  | .waiting, .next item observedAt => some (next sidechain s observedAt item)
  | .publishing _, .published result => some (published sidechain s result)
  | _, _ => none

/-- The clock does not go back. -/
def step (s : ForwardStream) (a : ForwardStreamAction) : Option ForwardStream :=
  if a.now < s.now then none
  else take sidechain stallTimeout { s with now := a.now } a.branch

/-! ### What a step does to the watchdog -/

/-- The watchdog of the stream. -/
def watchdog (s : ForwardStream) : Watchdog := ⟨s.liveEvents, s.checkedLiveEvents, s.stallDeadline⟩

end ForwardStream

/-- What an action tells the watchdog. -/
def ForwardStreamAction.signal (a : ForwardStreamAction) : Option Signal :=
  match a.branch with
  | .tipChanged _ => some (.prompt a.now)
  | .published (.ok ()) => some .active
  | _ => none

theorem ForwardStreamAction.signal_eq_prompt {a : ForwardStreamAction} {t : ℕ}
    (h : a.signal = some (.prompt t)) : ∃ tip, a = ⟨t, .tipChanged tip⟩ := by
  obtain ⟨now, branch⟩ := a
  unfold ForwardStreamAction.signal at h
  split at h
  · next tip hbranch =>
    cases h
    cases hbranch
    exact ⟨tip, rfl⟩
  · cases h
  · cases h

theorem ForwardStreamAction.signal_eq_active {a : ForwardStreamAction} :
    a.signal = some .active ↔ a.forwards = true := by
  obtain ⟨now, branch⟩ := a
  unfold ForwardStreamAction.signal ForwardStreamAction.forwards
  split
  · simp_all
  · simp_all
  · simp_all

/-- Nothing is forwarded. -/
theorem active_notMem_signals {as : List ForwardStreamAction} :
    .active ∉ as.filterMap (·.signal) ↔ ∀ a ∈ as, a.forwards = false := by
  simp only [List.mem_filterMap, ForwardStreamAction.signal_eq_active, not_exists, not_and,
    Bool.not_eq_true]

namespace ForwardStream

variable {sidechain stallTimeout : ℕ} {s t : ForwardStream} {a : ForwardStreamAction}

/-- What a step comes to, with the clock at its reading. -/
inductive Taken (sidechain stallTimeout : ℕ) (s : ForwardStream) : ForwardStreamBranch → ForwardStream → Prop
  | tipChanged (tip : ObservedBlock) : Taken sidechain stallTimeout s (.tipChanged tip)
      (s.tipChanged stallTimeout tip)
  | forwarded : Taken sidechain stallTimeout s (.published (.ok ())) (s.published sidechain (.ok ()))
  | stalled {deadline : ℕ} (hdeadline : s.stallDeadline = some deadline) (hdue : deadline ≤ s.now) :
      Taken sidechain stallTimeout s .stalled { s with at' := s.stalledAt sidechain stallTimeout }
  | elsewhere {branch : ForwardStreamBranch} (hstall : branch ≠ .stalled)
      (hsignal : ∀ now, ForwardStreamAction.signal ⟨now, branch⟩ = none)
      (at' : ForwardStreamAt) (hat : at' ≠ .panicked) :
      Taken sidechain stallTimeout s branch { s with at' := at' }

theorem take_cases {branch : ForwardStreamBranch}
    (h : s.take sidechain stallTimeout branch = some t) : Taken sidechain stallTimeout s branch t := by
  unfold take at h
  split at h
  · cases h
    exact .elsewhere (by nofun) (fun _ => rfl) _ (by nofun)
  · cases h
    exact .tipChanged _
  · cases h
    exact .elsewhere (by nofun) (fun _ => rfl) _ (by nofun)
  · unfold stall at h
    split at h
    · cases h
    · next deadline hdeadline =>
      split_ifs at h with hdue
      cases h
      exact .stalled hdeadline (not_lt.mp hdue)
  · next item observedAt _ =>
    cases h
    unfold next
    split
    · split
      · exact .elsewhere (by nofun) (fun _ => rfl) _ (by nofun)
      · exact .elsewhere (by nofun) (fun _ => rfl) _ (by nofun)
    · exact .elsewhere (by nofun) (fun _ => rfl) _ (by nofun)
    · exact .elsewhere (by nofun) (fun _ => rfl) _ (by nofun)
  · next result _ =>
    cases h
    cases result with
    | ok => exact .forwarded
    | error error => exact .elsewhere (by nofun) (fun _ => rfl) _ (by nofun)
  · cases h

theorem step_taken (h : s.step sidechain stallTimeout a = some t) :
    s.now ≤ a.now ∧ Taken sidechain stallTimeout { s with now := a.now } a.branch t := by
  unfold step at h
  split_ifs at h with hnow
  exact ⟨not_lt.mp hnow, take_cases h⟩

theorem Taken.now {branch : ForwardStreamBranch} (h : Taken sidechain stallTimeout s branch t) :
    t.now = s.now := by
  cases h with
  | tipChanged tip =>
    simp only [ForwardStream.tipChanged]
    split_ifs
    · rfl
    · rfl
  | forwarded | stalled | elsewhere => rfl

theorem step_now (h : s.step sidechain stallTimeout a = some t) : t.now = a.now :=
  (step_taken h).2.now

/-- **A step tells the watchdog what it has seen**, and changes nothing else of it. -/
theorem step_watchdog (h : s.step sidechain stallTimeout a = some t) :
    t.watchdog = a.signal.elim s.watchdog (s.watchdog.signal maxU64 stallTimeout) := by
  obtain ⟨-, htaken⟩ := step_taken h
  obtain ⟨now, branch⟩ := a
  cases htaken with
  | tipChanged tip =>
    simp only [ForwardStreamAction.signal, Option.elim_some, watchdog, tipChanged, Watchdog.signal]
    split_ifs
    · rfl
    · rfl
  | forwarded => rfl
  | stalled => rfl
  | elsewhere hstall hsignal =>
    rw [hsignal]
    rfl

theorem run_watchdog {as : List ForwardStreamAction} (h : run (step sidechain stallTimeout) s as = some t) :
    t.watchdog =
      (as.filterMap (·.signal)).foldl (Watchdog.signal maxU64 stallTimeout) s.watchdog := by
  induction as generalizing s with
  | nil =>
    cases h
    rfl
  | cons a rest ih =>
    obtain ⟨u, hstep, hrest⟩ := run_cons_eq_some.mp h
    rw [ih hrest, step_watchdog hstep, List.filterMap_cons]
    cases a.signal with
    | none => rfl
    | some signal => rfl

/-- What holds in every state. -/
structure Inv (stallTimeout : ℕ) (s : ForwardStream) : Prop where
  calm : s.watchdog.Calm
  tip : s.stallDeadline.isSome → s.stalledTip.isSome
  due : ∀ d, s.stallDeadline = some d → d ≤ s.now + stallTimeout
  sound : s.at' ≠ .panicked

theorem inv_start (now : ℕ) : Inv stallTimeout (start now) := ⟨nofun, nofun, nofun, nofun⟩

theorem step_inv (hs : Inv stallTimeout s) (h : s.step sidechain stallTimeout a = some t) :
    Inv stallTimeout t := by
  have hcalm : t.watchdog.Calm := by
    rw [step_watchdog h]
    cases a.signal with
    | none => exact hs.calm
    | some signal => exact Watchdog.calm_signal _ _ _ _
  obtain ⟨hnow, htaken⟩ := step_taken h
  have hdue : ∀ d, s.stallDeadline = some d → d ≤ a.now + stallTimeout := by
    intro d hd
    have := hs.due d hd
    omega
  obtain ⟨now, branch⟩ := a
  cases htaken with
  | tipChanged tip =>
    refine ⟨hcalm, ?_, ?_, ?_⟩ <;> simp only [tipChanged] <;> split_ifs
    · exact fun _ => rfl
    · exact nofun
    · intro d hd
      cases hdeadline : s.stallDeadline with
      | none =>
        simp only [hdeadline, Option.getD_none, Option.some.injEq] at hd
        exact hd.ge
      | some d' =>
        simp only [hdeadline, Option.getD_some, Option.some.injEq] at hd
        exact hd ▸ hdue d' hdeadline
    · exact nofun
    · exact hs.sound
    · exact hs.sound
  | forwarded => exact ⟨hcalm, nofun, nofun, nofun⟩
  | stalled hdeadline hwhen =>
    refine ⟨hcalm, hs.tip, hdue, ?_⟩
    obtain ⟨tip, htip⟩ := Option.isSome_iff_exists.mp (hs.tip (Option.isSome_of_eq_some hdeadline))
    simp only [stalledAt, htip]
    exact nofun
  | elsewhere hstall hsignal at' hat => exact ⟨hcalm, hs.tip, hdue, hat⟩

theorem run_inv {now : ℕ} {as : List ForwardStreamAction}
    (h : run (step sidechain stallTimeout) (start now) as = some s) : Inv stallTimeout s :=
  run_invariant (fun _ _ _ hs hstep => step_inv hs hstep) (inv_start now) h

/-! ### What arms it, and disarms it -/

/-- **A deadline was set by a change of the tip**, and nothing has been forwarded since. -/
theorem armed_by {now d : ℕ} {as : List ForwardStreamAction}
    (h : run (step sidechain stallTimeout) (start now) as = some s) (hd : s.stallDeadline = some d) :
    ∃ before t₀ tip after u, as = before ++ ⟨t₀, .tipChanged tip⟩ :: after ∧
      run (step sidechain stallTimeout) (start now) before = some u ∧ u.stallDeadline = none ∧
      (∀ b ∈ after, b.forwards = false) ∧ d = t₀ + stallTimeout := by
  have hdeadline : ((as.filterMap (·.signal)).foldl (Watchdog.signal maxU64 stallTimeout)
      (start now).watchdog).deadline = some d := by rw [← run_watchdog h, ← hd, watchdog]
  obtain ⟨earlier, t₀, later, hsignals, hnone, hquiet, rfl⟩ :=
    Watchdog.armed_by maxU64 stallTimeout rfl hdeadline
  obtain ⟨first, rest, rfl, rfl, hrest⟩ := List.filterMap_eq_append_iff.mp hsignals
  obtain ⟨silent, a, after, rfl, hsilent, ha, rfl⟩ := List.filterMap_eq_cons_iff.mp hrest
  obtain ⟨tip, rfl⟩ := ForwardStreamAction.signal_eq_prompt ha
  rw [← List.append_assoc, run_append] at h
  obtain ⟨u, hu, -⟩ := Option.bind_eq_some_iff.mp h
  refine ⟨first ++ silent, t₀, tip, after, u, (List.append_assoc _ _ _).symm, hu, ?_,
    active_notMem_signals.mp hquiet, rfl⟩
  have hwatchdog := run_watchdog hu
  rw [List.filterMap_append, List.filterMap_eq_nil_iff.mpr hsilent, List.append_nil] at hwatchdog
  rw [← hnone, ← hwatchdog, watchdog]

/-- **Changes of the tip do not put a deadline off.** -/
theorem deadline_kept {d : ℕ} {bs : List ForwardStreamAction} (hs : Inv stallTimeout s)
    (hd : s.stallDeadline = some d) (h : run (step sidechain stallTimeout) s bs = some t)
    (hquiet : ∀ b ∈ bs, b.forwards = false) : t.stallDeadline = some d := by
  have hdeadline := Watchdog.deadline_kept maxU64 stallTimeout hs.calm hd (active_notMem_signals.mpr hquiet)
  rwa [← run_watchdog h] at hdeadline

/-- **The second change of the tip finds a deadline or sets one.** -/
theorem second_change {t₁ t₂ : ℕ} {tip₁ tip₂ : ObservedBlock} {between : List ForwardStreamAction}
    (h : run (step sidechain stallTimeout) s
      (⟨t₁, .tipChanged tip₁⟩ :: between ++ [⟨t₂, .tipChanged tip₂⟩]) = some t)
    (hquiet : ∀ b ∈ between, b.forwards = false) : t.stallDeadline.isSome := by
  have hdeadline := Watchdog.second_prompt maxU64 stallTimeout s.watchdog t₁ t₂
    (active_notMem_signals.mpr hquiet)
  have hsignals : List.filterMap ForwardStreamAction.signal
      (⟨t₁, .tipChanged tip₁⟩ :: between ++ [⟨t₂, .tipChanged tip₂⟩]) =
      .prompt t₁ :: between.filterMap (·.signal) ++ [.prompt t₂] := by
    rw [List.filterMap_append]
    rfl
  rwa [← hsignals, ← run_watchdog h] at hdeadline

/-- **A forwarded event takes the deadline away**, and the tip. -/
theorem forwarded_disarms (h : s.step sidechain stallTimeout a = some t) (ha : a.forwards = true) :
    t.stallDeadline = none ∧ t.stalledTip = none := by
  have hsignal := ForwardStreamAction.signal_eq_active.mpr ha
  obtain ⟨-, htaken⟩ := step_taken h
  obtain ⟨now, branch⟩ := a
  cases htaken with
  | tipChanged | stalled => cases hsignal
  | forwarded => exact ⟨rfl, rfl⟩
  | elsewhere hstall hnone =>
    rw [hnone] at hsignal
    cases hsignal

end ForwardStream

open ForwardStream in
/-- **The watchdog of a stream**, in every trace. A stall is reported with the stored tip, and only if
nothing was forwarded from the change of the tip that set the deadline until the timeout had passed. Of
the changes of the tip that follow one another with nothing forwarded, the second finds a deadline or
sets one, and no later one puts it off. A forwarded event takes it away, and there is none without a
stored tip. -/
theorem forward_stream_watchdog {sidechain stallTimeout now : ℕ} {as : List ForwardStreamAction}
    {s : ForwardStream} (h : run (step sidechain stallTimeout) (start now) as = some s) :
    (∀ a t, a.branch = .stalled → s.step sidechain stallTimeout a = some t →
      (∃ tip, s.stalledTip = some tip ∧
        t.at' = .returned (.error (stallReport sidechain stallTimeout tip))) ∧
      ∃ before t₀ tip after u, as = before ++ ⟨t₀, .tipChanged tip⟩ :: after ∧
        run (step sidechain stallTimeout) (start now) before = some u ∧ u.stallDeadline = none ∧
        (∀ b ∈ after, b.forwards = false) ∧ t₀ + stallTimeout ≤ a.now) ∧
    (∀ before between after t₁ t₂ tip₁ tip₂,
      as = before ++ (⟨t₁, .tipChanged tip₁⟩ :: between ++ [⟨t₂, .tipChanged tip₂⟩]) ++ after →
      (∀ b ∈ between ++ after, b.forwards = false) →
      ∃ u d, run (step sidechain stallTimeout) (start now)
          (before ++ (⟨t₁, .tipChanged tip₁⟩ :: between ++ [⟨t₂, .tipChanged tip₂⟩])) = some u ∧
        u.stallDeadline = some d ∧ d ≤ t₂ + stallTimeout ∧ s.stallDeadline = some d) ∧
    (∀ d bs t, s.stallDeadline = some d → run (step sidechain stallTimeout) s bs = some t →
      (∀ b ∈ bs, b.forwards = false) → t.stallDeadline = some d) ∧
    (∀ a t, a.forwards = true → s.step sidechain stallTimeout a = some t →
      t.stallDeadline = none ∧ t.stalledTip = none) ∧
    (s.stallDeadline.isSome → s.stalledTip.isSome) ∧ s.at' ≠ .panicked := by
  have hinv := run_inv h
  refine ⟨fun a t ha hstep => ?_, fun before between after t₁ t₂ tip₁ tip₂ hsplit hquiet => ?_,
    fun d bs t hd hrun hquiet => deadline_kept hinv hd hrun hquiet,
    fun a t ha hstep => forwarded_disarms hstep ha, hinv.tip, hinv.sound⟩
  · obtain ⟨hnow, htaken⟩ := step_taken hstep
    obtain ⟨now', branch⟩ := a
    cases htaken with
    | tipChanged | forwarded => cases ha
    | elsewhere hstall => exact (hstall ha).elim
    | stalled hdeadline hdue =>
      obtain ⟨tip, htip⟩ := Option.isSome_iff_exists.mp (hinv.tip (Option.isSome_of_eq_some hdeadline))
      obtain ⟨before, t₀, tip', after, u, hsplit, hu, hnone, hquiet, rfl⟩ := armed_by h hdeadline
      refine ⟨⟨tip, htip, ?_⟩, before, t₀, tip', after, u, hsplit, hu, hnone, hquiet, hdue⟩
      simp only [stalledAt, htip]
  · rw [hsplit, run_append] at h
    obtain ⟨u, hu, hrest⟩ := Option.bind_eq_some_iff.mp h
    have hbetween (b : ForwardStreamAction) (hb : b ∈ between) := hquiet b (List.mem_append_left _ hb)
    have hafter (b : ForwardStreamAction) (hb : b ∈ after) := hquiet b (List.mem_append_right _ hb)
    have hsecond := hu
    rw [run_append] at hsecond
    obtain ⟨v, hv, hsecond⟩ := Option.bind_eq_some_iff.mp hsecond
    obtain ⟨d, hd⟩ := Option.isSome_iff_exists.mp (second_change hsecond hbetween)
    have hnow : u.now = t₂ := by
      rw [run_append] at hsecond
      obtain ⟨w, -, hlast⟩ := Option.bind_eq_some_iff.mp hsecond
      obtain ⟨u', hstep, hlast⟩ := run_cons_eq_some.mp hlast
      cases hlast
      exact step_now hstep
    exact ⟨u, d, hu, hd, hnow ▸ (run_inv hu).due d hd, deadline_kept (run_inv hu) hd hrest hafter⟩

/-! ### A silent stream -/

namespace SilentStream

def first : ObservedBlock := .atHeight (List.replicate 32 0x22) 501
def second : ObservedBlock := .atHeight (List.replicate 32 0x33) 502

/-- Two changes of the tip, which nothing follows. -/
def changes : List ForwardStreamAction := [⟨5, .tipChanged first⟩, ⟨9, .tipChanged second⟩]

end SilentStream

open SilentStream ForwardStream in
/-- The stall is reported with the second tip, at the deadline that the first one set. -/
theorem forward_stream_watchdog_silent :
    ∃ s t, run (step 9 10) (start 0) changes = some s ∧ s.step 9 10 ⟨15, .stalled⟩ = some t ∧
      s.stalledTip = some second ∧
      ∃ tip, s.stalledTip = some tip ∧ t.at' = .returned (.error (stallReport 9 10 tip)) := by
  have hrun : run (step 9 10) (start 0) changes = some ⟨.waiting, 9, 0, 0, some second, some 15⟩ := rfl
  obtain ⟨hstall, -⟩ := forward_stream_watchdog hrun
  exact ⟨_, _, hrun, rfl, rfl, (hstall ⟨15, .stalled⟩ _ rfl rfl).1⟩

end Bip300Monitor

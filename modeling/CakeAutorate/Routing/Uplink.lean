/-
# The life cycle of an uplink

`UplinkLifecycle` of `routing.rs`: route observations confirm the identity of an uplink, samples are
learned under it, and a transition tells the runtime whether probes may run.  A history keeps beside
it what the code does not: the observations and the accepted samples since the identity last changed
or was seen offline.
-/

import CakeAutorate.Machine.Run
import CakeAutorate.Protocol.CapturePolicy

namespace CakeAutorate.Routing

open Wire Protocol Machine Nat List Option

structure RouteIdentity where
  deviceIfindex : Option UInt32
  fwmarkMask : Option UInt32
  mode : Text
  member : Text
  device : Text
  sourceIp : Text
  fwmark : Text
  table : Text

def RouteIdentity.stableKey (i : RouteIdentity) : Text :=
  let key := i.mode ++ '|' :: i.member ++ '|' :: i.device ++ '|' :: i.sourceIp ++ '|' :: i.fwmark
    ++ '|' :: i.table
  let key := match i.fwmarkMask with
    | some mask => key ++ lit "|mask=" ++ display mask.toNat
    | none => key
  match i.deviceIfindex with
  | some index => key ++ lit "|ifindex=" ++ display index.toNat
  | none => key

/-- What is seen of the route. -/
structure RouteSnapshot where
  identity : RouteIdentity
  online : Bool
  active : Bool
  memberStatus : Text
  reason : Text

def RouteSnapshot.stableKey (s : RouteSnapshot) : Text := s.identity.stableKey

abbrev Observation := Except Text RouteSnapshot

inductive UplinkState where
  | active
  | standby
  | rechecking
  | offline
  | learning
  deriving DecidableEq

def UplinkState.available : UplinkState → Bool
  | .active | .standby => true
  | .rechecking | .offline | .learning => false

structure UplinkTransition where
  state : UplinkState
  reason : Text
  identityChanged : Bool
  becameOffline : Bool
  resetLearning : Bool
  probesAllowed : Bool

def UplinkTransition.retiresProbes (t : UplinkTransition) (previouslyAllowed : Bool) : Bool :=
  t.becameOffline || t.identityChanged || (previouslyAllowed && !t.probesAllowed)

structure UplinkLifecycle where
  state : UplinkState
  identity : Option Text
  confirmationCandidate : Option Text
  routeConfirmed : Bool
  learned : Bool
  learningSamples : ℕ
  activeRoute : Bool
  reason : Text

namespace UplinkLifecycle

def new : UplinkLifecycle where
  state := .offline
  identity := none
  confirmationCandidate := none
  routeConfirmed := false
  learned := false
  learningSamples := 0
  activeRoute := false
  reason := lit "route not checked"

variable (l : UplinkLifecycle)

def transition (previousState : UplinkState) (identityChanged resetLearning probesAllowed : Bool) :
    UplinkTransition where
  state := l.state
  reason := l.reason
  identityChanged
  becameOffline := l.state == .offline && previousState != .offline
  resetLearning
  probesAllowed

def transientMemberState (s : RouteSnapshot) : Bool :=
  s.memberStatus == lit "connecting" || s.memberStatus == lit "disconnecting"

def recheck (reason : Text) : UplinkLifecycle × UplinkTransition :=
  let next := { l with confirmationCandidate := none, state := .rechecking, reason }
  (next, next.transition l.state false false false)

/-- `observe`, a member that connects or disconnects. -/
def observeTransient (s : RouteSnapshot) : UplinkLifecycle × UplinkTransition :=
  l.recheck (if s.reason.isEmpty then
    lit "member " ++ s.identity.member ++ lit " is " ++ s.memberStatus
      ++ lit "; waiting for an exact route observation"
    else s.reason)

/-- `observe`, an inspection that failed. -/
def observeError (error : Text) : UplinkLifecycle × UplinkTransition :=
  l.recheck (lit "route status unavailable: " ++ error)

section

variable (s : RouteSnapshot)

/-- `observe`, a member that is offline. -/
def observeOffline : UplinkLifecycle × UplinkTransition :=
  let resetLearning := l.routeConfirmed || l.learned || l.confirmationCandidate.isSome
    || l.state != .offline
  let next := { l with
    state := .offline
    confirmationCandidate := none
    routeConfirmed := false
    learned := false
    learningSamples := 0
    activeRoute := false
    reason := if s.reason.isEmpty then lit "member " ++ s.identity.member ++ lit " is offline"
      else s.reason }
  (next, next.transition l.state false resetLearning false)

/-- `observe`, the first online snapshot of an identity. -/
def observeChanged : UplinkLifecycle × UplinkTransition :=
  let next := { l with
    activeRoute := s.active
    identity := some s.stableKey
    confirmationCandidate := some s.stableKey
    routeConfirmed := false
    learned := false
    learningSamples := 0
    state := .learning
    reason := lit "waiting for repeated matching route identity" }
  (next, next.transition l.state true true false)

/-- `observe`, an online snapshot that starts a confirmation. -/
def observeCandidate : UplinkLifecycle × UplinkTransition :=
  let next := { l with
    activeRoute := s.active
    confirmationCandidate := some s.stableKey
    state := .learning
    reason := lit "waiting for repeated matching route identity" }
  (next, next.transition l.state false (l.state == .offline) false)

/-- `observe`, an online snapshot of a confirmed route. -/
def observeConfirmed : UplinkLifecycle × UplinkTransition :=
  let next := { l with
    activeRoute := s.active
    confirmationCandidate := if l.routeConfirmed then l.confirmationCandidate else none
    routeConfirmed := true
    state := if !l.learned then .learning else if s.active then .active else .standby
    reason := if !l.learned then lit "learning latency baseline" else s.reason }
  (next, next.transition l.state false false true)

/-- `observe`, an online snapshot. -/
def observeOnline : UplinkLifecycle × UplinkTransition :=
  if l.identity ≠ some s.stableKey then l.observeChanged s
  else if !l.routeConfirmed ∧ l.confirmationCandidate ≠ some s.stableKey then l.observeCandidate s
  else l.observeConfirmed s

end

def observe : Observation → UplinkLifecycle × UplinkTransition
  | .ok s =>
    if s.online then l.observeOnline s
    else if transientMemberState s then l.observeTransient s
    else l.observeOffline s
  | .error error => l.observeError error

def accepts : Bool := !(l.state != .learning || !l.routeConfirmed)

/-- `UplinkLifecycle::record_learning_sample`, where a `usize` is at most `usizeMax`. -/
def recordLearningSample (usizeMax requiredSamples : ℕ) : UplinkLifecycle × Bool :=
  if !l.accepts then (l, false)
  else
    let counted := { l with learningSamples := min (l.learningSamples + 1) usizeMax }
    if counted.learningSamples < max requiredSamples 1 then (counted, false)
    else if counted.activeRoute then
      ({ counted with learned := true, state := .active, reason := [] }, true)
    else
      ({ counted with
        learned := true
        state := .standby
        reason := lit "standby: forced probes remain isolated to this uplink" }, true)

end UplinkLifecycle

namespace Observation

def onlineKey : Observation → Option Text
  | .ok s => if s.online then some s.stableKey else none
  | .error _ => none

def isOffline : Observation → Bool
  | .ok s => !s.online && !UplinkLifecycle.transientMemberState s
  | .error _ => false

end Observation

/-- What an observation does to a life cycle. -/
inductive Observes (l : UplinkLifecycle) (o : Observation) :
    UplinkLifecycle × UplinkTransition → Prop where
  | unknown (reason : Text) (key : o.onlineKey = none) (offline : o.isOffline = false) :
      Observes l o (l.recheck reason)
  | offline (s : RouteSnapshot) (key : o.onlineKey = none) (offline : o.isOffline = true) :
      Observes l o (l.observeOffline s)
  | changed (s : RouteSnapshot) (key : o.onlineKey = some s.stableKey)
      (offline : o.isOffline = false) (identity : l.identity ≠ some s.stableKey) :
      Observes l o (l.observeChanged s)
  | candidate (s : RouteSnapshot) (key : o.onlineKey = some s.stableKey)
      (offline : o.isOffline = false) (identity : l.identity = some s.stableKey)
      (unconfirmed : l.routeConfirmed = false) : Observes l o (l.observeCandidate s)
  | confirmed (s : RouteSnapshot) (key : o.onlineKey = some s.stableKey)
      (offline : o.isOffline = false) (identity : l.identity = some s.stableKey)
      (confirmed : l.routeConfirmed = true ∨ l.confirmationCandidate = some s.stableKey) :
      Observes l o (l.observeConfirmed s)

/-- **Observation.** -/
theorem observes (l : UplinkLifecycle) (o : Observation) : Observes l o (l.observe o) := by
  cases o with
  | error error => exact .unknown _ rfl rfl
  | ok s =>
    simp only [UplinkLifecycle.observe]
    by_cases honline : s.online = true
    · have hkey : Observation.onlineKey (.ok s) = some s.stableKey := by
        simp [Observation.onlineKey, honline]
      have hoffline : Observation.isOffline (.ok s) = false := by
        simp [Observation.isOffline, honline]
      rw [if_pos honline, UplinkLifecycle.observeOnline]
      by_cases hidentity : l.identity = some s.stableKey
      · rw [if_neg (not_not.2 hidentity)]
        split
        · rename_i hcandidate
          exact .candidate s hkey hoffline hidentity (by simpa using hcandidate.1)
        · rename_i hconfirmed
          refine .confirmed s hkey hoffline hidentity ?_
          by_contra hnot
          push Not at hnot
          exact hconfirmed ⟨by simpa using hnot.1, hnot.2⟩
      · rw [if_pos hidentity]
        exact .changed s hkey hoffline hidentity
    · have hkey : Observation.onlineKey (.ok s) = none := by
        simp [Observation.onlineKey, honline]
      rw [if_neg honline]
      by_cases htransient : UplinkLifecycle.transientMemberState s = true
      · rw [if_pos htransient]
        exact .unknown _ hkey (by simp [Observation.isOffline, htransient])
      · rw [if_neg htransient]
        exact .offline s hkey (by simpa [Observation.isOffline, honline] using htransient)

/-- A call of a life cycle. -/
inductive UplinkCall where
  | observe (observation : Observation)
  | recordLearningSample (requiredSamples : ℕ)

/-- What happened to a life cycle: an observation with the identity that it found online, or
a sample that was accepted, with the number that was required. -/
inductive UplinkEntry where
  | observed (key : Option Text)
  | accepted (requiredSamples : ℕ)

/-- A life cycle with what happened since the identity last changed or was seen offline,
newest first, the identity that was last online, and whether probes are allowed. -/
structure UplinkHistory where
  lifecycle : UplinkLifecycle
  last : Option Text
  since : List UplinkEntry
  allowed : Bool

namespace UplinkHistory

def start : UplinkHistory := ⟨.new, none, [], false⟩

def sinceObserved (h : UplinkHistory) (o : Observation) : List UplinkEntry :=
  if o.isOffline then []
  else
    match o.onlineKey with
    | some key => if h.last = some key then .observed (some key) :: h.since
      else [.observed (some key)]
    | none => .observed none :: h.since

def step (usizeMax : ℕ) (h : UplinkHistory) : UplinkCall → UplinkHistory
  | .observe o =>
    { lifecycle := (h.lifecycle.observe o).1
      last := o.onlineKey.or h.last
      since := h.sinceObserved o
      allowed := (h.lifecycle.observe o).2.probesAllowed }
  | .recordLearningSample required =>
    { h with
      lifecycle := (h.lifecycle.recordLearningSample usizeMax required).1
      since := if h.lifecycle.accepts then .accepted required :: h.since else h.since }

end UplinkHistory

def observations : List UplinkEntry → List (Option Text)
  | [] => []
  | .observed key :: entries => key :: observations entries
  | .accepted _ :: entries => observations entries

def samples : List UplinkEntry → ℕ
  | [] => 0
  | .observed _ :: entries => samples entries
  | .accepted _ :: entries => samples entries + 1

def Repeated (key : Text) (entries : List UplinkEntry) : Prop :=
  ∃ newer older, observations entries = newer ++ some key :: some key :: older

def Learned (entries : List UplinkEntry) : Prop :=
  ∃ required, .accepted required ∈ entries ∧ max 1 required ≤ samples entries

def OnlyOf (key : Text) (entries : List UplinkEntry) : Prop :=
  ∀ other, some other ∈ observations entries → other = key

/-- An observation as the runtime may rely on it. -/
structure SoundObservation (h : UplinkHistory) (o : Observation) : Prop where
  /-- Probes are allowed for an identity that two successive observations found online. -/
  probes : (h.lifecycle.observe o).2.probesAllowed = true →
    ∃ key, o.onlineKey = some key ∧ Repeated key (h.sinceObserved o)
  /-- An uplink is available if enough samples were accepted under its identity. -/
  available : (h.lifecycle.observe o).2.state.available = true →
    ∃ key, o.onlineKey = some key ∧ OnlyOf key (h.sinceObserved o) ∧ Learned (h.sinceObserved o)
  /-- An error or a transient state is not offline and drops nothing. -/
  unknown : o.onlineKey = none → o.isOffline = false →
    (h.lifecycle.observe o).2.state ≠ .offline ∧
      (h.lifecycle.observe o).1.learned = h.lifecycle.learned ∧
      (h.lifecycle.observe o).1.learningSamples = h.lifecycle.learningSamples ∧
      samples (h.sinceObserved o) = samples h.since
  /-- Samples that are dropped are reported. -/
  dropped : ((h.lifecycle.observe o).1.learningSamples < h.lifecycle.learningSamples ∨
      h.lifecycle.learned = true ∧ (h.lifecycle.observe o).1.learned = false ∨
      samples (h.sinceObserved o) < samples h.since) →
    (h.lifecycle.observe o).2.resetLearning = true
  /-- Probes are retired when they are no longer allowed or the identity is another one. -/
  retired : h.allowed = true →
    ((h.lifecycle.observe o).2.probesAllowed = false ∨
      ∃ key, o.onlineKey = some key ∧ h.last ≠ some key) →
    (h.lifecycle.observe o).2.retiresProbes h.allowed = true

/-- A sample as the runtime may rely on it. -/
structure SoundSample (usizeMax : ℕ) (h : UplinkHistory) (required : ℕ) : Prop where
  /-- An uplink is available if enough samples were accepted under its identity. -/
  available : (h.step usizeMax (.recordLearningSample required)).lifecycle.state.available = true →
    ∃ key, h.last = some key ∧ OnlyOf key (h.step usizeMax (.recordLearningSample required)).since ∧
      Learned (h.step usizeMax (.recordLearningSample required)).since
  /-- No sample is dropped. -/
  kept : (h.lifecycle.learned = true →
      (h.step usizeMax (.recordLearningSample required)).lifecycle.learned = true) ∧
    samples h.since ≤ samples (h.step usizeMax (.recordLearningSample required)).since

def SoundUplinkCall (usizeMax : ℕ) (h : UplinkHistory) : UplinkCall → Prop
  | .observe o => SoundObservation h o
  | .recordLearningSample required => SoundSample usizeMax h required

def UplinkCall.Unknown : UplinkCall → Prop
  | .observe o => o.onlineKey = none ∧ o.isOffline = false
  | .recordLearningSample _ => True

/-- The life cycle agrees with its history. -/
structure UplinkHistory.Agrees (h : UplinkHistory) : Prop where
  identity : h.lifecycle.identity = h.last
  only : ∀ key, some key ∈ observations h.since → h.last = some key
  candidate : ∀ key, h.lifecycle.confirmationCandidate = some key →
    h.lifecycle.routeConfirmed = false ∧ (observations h.since).head? = some (some key)
  confirmed : h.lifecycle.routeConfirmed = true → ∃ key, h.last = some key ∧ Repeated key h.since
  unconfirmed : h.lifecycle.routeConfirmed = false → h.lifecycle.learningSamples = 0 ∧
    h.lifecycle.learned = false ∧ samples h.since = 0
  counted : h.lifecycle.learningSamples ≤ samples h.since
  learned : h.lifecycle.learned = true → Learned h.since
  available : h.lifecycle.state.available = true → h.lifecycle.learned = true

theorem Repeated.cons {key : Text} {entries : List UplinkEntry} (h : Repeated key entries)
    (entry : UplinkEntry) : Repeated key (entry :: entries) := by
  obtain ⟨newer, older, heq⟩ := h
  cases entry with
  | observed other => exact ⟨other :: newer, older, by simp [observations, heq]⟩
  | accepted required => exact ⟨newer, older, heq⟩

theorem samples_le_cons (entry : UplinkEntry) (entries : List UplinkEntry) :
    samples entries ≤ samples (entry :: entries) := by
  cases entry with
  | observed key => exact le_refl _
  | accepted required => exact le_succ _

theorem Learned.cons {entries : List UplinkEntry} (h : Learned entries) (entry : UplinkEntry) :
    Learned (entry :: entries) := by
  obtain ⟨required, hmem, hle⟩ := h
  exact ⟨required, mem_cons_of_mem _ hmem, hle.trans (samples_le_cons entry entries)⟩

namespace UplinkHistory.Agrees

variable {h : UplinkHistory}

theorem start : UplinkHistory.start.Agrees where
  identity := rfl
  only := nofun
  candidate := nofun
  confirmed := nofun
  unconfirmed := fun _ => ⟨rfl, rfl, rfl⟩
  counted := le_refl _
  learned := nofun
  available := nofun

theorem onlyOf {key : Text} (hh : h.Agrees) (hlast : h.last = some key) : OnlyOf key h.since := by
  intro other hother
  have hkey := hh.only other hother
  rw [hlast] at hkey
  exact (some.inj hkey).symm

theorem recheck (hh : h.Agrees) (reason : Text) :
    Agrees ⟨(h.lifecycle.recheck reason).1, h.last, .observed none :: h.since, false⟩ where
  identity := hh.identity
  only := by
    intro key hkey
    refine hh.only key ?_
    simpa [observations] using hkey
  candidate := nofun
  confirmed := by
    intro hc
    obtain ⟨key, hlast, hrepeated⟩ := hh.confirmed hc
    exact ⟨key, hlast, hrepeated.cons _⟩
  unconfirmed := hh.unconfirmed
  counted := hh.counted
  learned := fun hl => (hh.learned hl).cons _
  available := nofun

theorem observeOffline (hh : h.Agrees) (s : RouteSnapshot) :
    Agrees ⟨(h.lifecycle.observeOffline s).1, h.last, [], false⟩ where
  identity := hh.identity
  only := nofun
  candidate := nofun
  confirmed := nofun
  unconfirmed := fun _ => ⟨rfl, rfl, rfl⟩
  counted := le_refl _
  learned := nofun
  available := nofun

theorem observeChanged (l : UplinkLifecycle) (s : RouteSnapshot) :
    Agrees ⟨(l.observeChanged s).1, some s.stableKey, [.observed (some s.stableKey)], false⟩ where
  identity := rfl
  only := by
    intro key hkey
    simp only [observations, mem_singleton] at hkey
    exact hkey.symm
  candidate := by
    intro key hkey
    exact ⟨rfl, congrArg some hkey⟩
  confirmed := nofun
  unconfirmed := fun _ => ⟨rfl, rfl, rfl⟩
  counted := le_refl _
  learned := nofun
  available := nofun

theorem only_cons (hh : h.Agrees) {key : Text} (hlast : h.last = some key) :
    ∀ other, some other ∈ observations (.observed (some key) :: h.since) → h.last = some other := by
  intro other hother
  simp only [observations, mem_cons, some.injEq] at hother
  obtain rfl | hmem := hother
  · exact hlast
  · exact hh.only other hmem

variable {s : RouteSnapshot}

section

variable (hh : h.Agrees)
include hh

theorem observeCandidate (hlast : h.last = some s.stableKey)
    (hc : h.lifecycle.routeConfirmed = false) :
    Agrees ⟨(h.lifecycle.observeCandidate s).1, h.last, .observed (some s.stableKey) :: h.since,
      false⟩ where
  identity := hh.identity
  only := hh.only_cons hlast
  candidate := by
    intro key hkey
    exact ⟨hc, congrArg some hkey⟩
  confirmed := by
    intro hc'
    have : h.lifecycle.routeConfirmed = true := hc'
    rw [hc] at this
    cases this
  unconfirmed := hh.unconfirmed
  counted := hh.counted
  learned := fun hl => (hh.learned hl).cons _
  available := nofun

theorem repeated_of_confirmed {key : Text} (hlast : h.last = some key)
    (hc : h.lifecycle.routeConfirmed = true ∨ h.lifecycle.confirmationCandidate = some key) :
    Repeated key (.observed (some key) :: h.since) := by
  obtain hconfirmed | hcandidate := hc
  · obtain ⟨key', hlast', hrepeated⟩ := hh.confirmed hconfirmed
    cases hlast.symm.trans hlast'
    exact hrepeated.cons _
  · obtain ⟨-, hhead⟩ := hh.candidate key hcandidate
    cases hobs : observations h.since with
    | nil => simp [hobs] at hhead
    | cons first rest =>
      rw [hobs] at hhead
      cases hhead
      exact ⟨[], rest, by simp [observations, hobs]⟩

theorem observeConfirmed (hlast : h.last = some s.stableKey)
    (hc : h.lifecycle.routeConfirmed = true ∨ h.lifecycle.confirmationCandidate = some s.stableKey) :
    Agrees ⟨(h.lifecycle.observeConfirmed s).1, h.last, .observed (some s.stableKey) :: h.since,
      true⟩ where
  identity := hh.identity
  only := hh.only_cons hlast
  candidate := by
    intro key hkey
    simp only [UplinkLifecycle.observeConfirmed] at hkey
    split at hkey
    · rename_i hconfirmed
      obtain ⟨hunconfirmed, -⟩ := hh.candidate key hkey
      rw [hconfirmed] at hunconfirmed
      cases hunconfirmed
    · cases hkey
  confirmed := fun _ => ⟨s.stableKey, hlast, hh.repeated_of_confirmed hlast hc⟩
  unconfirmed := nofun
  counted := hh.counted
  learned := fun hl => (hh.learned hl).cons _
  available := by
    intro ha
    show h.lifecycle.learned = true
    simp only [UplinkLifecycle.observeConfirmed] at ha
    cases hl : h.lifecycle.learned with
    | true => rfl
    | false =>
      rw [hl] at ha
      cases ha

theorem recordLearningSample (usizeMax required : ℕ) :
    (h.step usizeMax (.recordLearningSample required)).Agrees := by
  simp only [UplinkHistory.step, UplinkLifecycle.recordLearningSample]
  cases haccepts : h.lifecycle.accepts with
  | false => simpa using hh
  | true =>
    have hconfirmed : h.lifecycle.routeConfirmed = true := by
      simp only [UplinkLifecycle.accepts, Bool.not_eq_true', Bool.or_eq_false_iff,
        Bool.not_eq_false'] at haccepts
      exact haccepts.2
    have hcandidate : ∀ key, h.lifecycle.confirmationCandidate ≠ some key := by
      intro key hkey
      obtain ⟨hunconfirmed, -⟩ := hh.candidate key hkey
      rw [hconfirmed] at hunconfirmed
      cases hunconfirmed
    have hrepeated : ∃ key, h.last = some key ∧ Repeated key (.accepted required :: h.since) := by
      obtain ⟨key, hlast, hrepeated⟩ := hh.confirmed hconfirmed
      exact ⟨key, hlast, hrepeated.cons _⟩
    have hcounted : min (h.lifecycle.learningSamples + 1) usizeMax ≤
        samples (.accepted required :: h.since) :=
      (min_le_left _ _).trans (succ_le_succ hh.counted)
    simp only [Bool.not_true, Bool.false_eq_true, if_false, if_true]
    split
    · refine ⟨hh.identity, hh.only, ?_, fun _ => hrepeated, ?_, hcounted,
        fun hl => (hh.learned hl).cons _, hh.available⟩
      · exact fun key hkey => absurd hkey (hcandidate key)
      · intro hu
        have : h.lifecycle.routeConfirmed = false := hu
        rw [hconfirmed] at this
        cases this
    · rename_i henough
      have hlearned : Learned (.accepted required :: h.since) := by
        refine ⟨required, mem_cons_self, ?_⟩
        rw [max_comm]
        exact (not_lt.1 henough).trans hcounted
      split <;>
      · refine ⟨hh.identity, hh.only, ?_, fun _ => hrepeated, ?_, hcounted,
          fun _ => hlearned, fun _ => rfl⟩
        · exact fun key hkey => absurd hkey (hcandidate key)
        · intro hu
          have : h.lifecycle.routeConfirmed = false := hu
          rw [hconfirmed] at this
          cases this

/-- **Every observation keeps the agreement.** -/
theorem observe (usizeMax : ℕ) (o : Observation) : (h.step usizeMax (.observe o)).Agrees := by
  simp only [UplinkHistory.step, UplinkHistory.sinceObserved]
  have hcase := observes h.lifecycle o
  revert hcase
  generalize h.lifecycle.observe o = answer
  intro hcase
  cases hcase with
  | unknown reason key offline =>
    simp only [key, offline]
    exact hh.recheck reason
  | offline s key offline =>
    simp only [key, offline]
    exact hh.observeOffline s
  | changed s key offline identity =>
    rw [hh.identity] at identity
    simp only [key, offline, some_or, identity]
    exact observeChanged h.lifecycle s
  | candidate s key offline identity unconfirmed =>
    rw [hh.identity] at identity
    have hagrees := hh.observeCandidate identity unconfirmed
    rw [identity] at hagrees
    simp only [key, offline, identity, some_or]
    exact hagrees
  | confirmed s key offline identity confirmed =>
    rw [hh.identity] at identity
    have hagrees := hh.observeConfirmed identity confirmed
    rw [identity] at hagrees
    simp only [key, offline, identity, some_or]
    exact hagrees

/-- **Every call keeps the agreement.** -/
theorem step (usizeMax : ℕ) (call : UplinkCall) : (h.step usizeMax call).Agrees := by
  cases call with
  | observe o => exact hh.observe usizeMax o
  | recordLearningSample required => exact hh.recordLearningSample usizeMax required

end

theorem sinceObserved_same {o : Observation} {key : Text} (hkey : o.onlineKey = some key)
    (hoffline : o.isOffline = false) (hlast : h.last = some key) :
    h.sinceObserved o = .observed (some key) :: h.since := by
  simp [UplinkHistory.sinceObserved, hkey, hoffline, hlast]

/-- **Every observation is sound.** -/
theorem soundObservation (hh : h.Agrees) (o : Observation) : SoundObservation h o := by
  have hcase := observes h.lifecycle o
  generalize hanswer : h.lifecycle.observe o = answer at hcase
  constructor <;> rw [hanswer]
  case probes =>
    intro hprobes
    cases hcase with
    | confirmed s key offline identity confirmed =>
      rw [hh.identity] at identity
      rw [sinceObserved_same key offline identity]
      exact ⟨_, key, hh.repeated_of_confirmed identity confirmed⟩
    | _ => cases hprobes
  case available =>
    intro havailable
    cases hcase with
    | confirmed s key offline identity confirmed =>
      rw [hh.identity] at identity
      have hagrees := hh.observeConfirmed identity confirmed
      rw [sinceObserved_same key offline identity]
      exact ⟨_, key, hagrees.onlyOf identity, hagrees.learned (hagrees.available havailable)⟩
    | _ => cases havailable
  case unknown =>
    intro hkey hoffline
    cases hcase with
    | unknown reason key offline =>
      refine ⟨?_, rfl, rfl, ?_⟩
      · simp [UplinkLifecycle.recheck, UplinkLifecycle.transition]
      · simp [UplinkHistory.sinceObserved, hkey, hoffline, samples]
    | offline s key offline =>
      rw [hoffline] at offline
      cases offline
    | changed s key offline identity =>
      rw [hkey] at key
      cases key
    | candidate s key offline identity unconfirmed =>
      rw [hkey] at key
      cases key
    | confirmed s key offline identity confirmed =>
      rw [hkey] at key
      cases key
  case dropped =>
    intro hdropped
    cases hcase with
    | unknown reason key offline =>
      simp [UplinkHistory.sinceObserved, key, offline, samples, UplinkLifecycle.recheck] at hdropped
    | offline s key offline =>
      -- where anything was learned, the route was confirmed
      show (h.lifecycle.routeConfirmed || h.lifecycle.learned
        || h.lifecycle.confirmationCandidate.isSome || h.lifecycle.state != .offline) = true
      cases hconfirmed : h.lifecycle.routeConfirmed with
      | true => simp
      | false =>
        obtain ⟨hzero, hnot, hnone⟩ := hh.unconfirmed hconfirmed
        rw [hzero, hnot, hnone] at hdropped
        simp at hdropped
    | changed s key offline identity => rfl
    | candidate s key offline identity unconfirmed =>
      rw [hh.identity] at identity
      rw [sinceObserved_same key offline identity] at hdropped
      simp [samples, UplinkLifecycle.observeCandidate] at hdropped
    | confirmed s key offline identity confirmed =>
      rw [hh.identity] at identity
      rw [sinceObserved_same key offline identity] at hdropped
      simp [samples, UplinkLifecycle.observeConfirmed] at hdropped
  case retired =>
    intro hallowed hlost
    rw [hallowed]
    cases hcase with
    | unknown reason key offline => rfl
    | offline s key offline => simp [UplinkTransition.retiresProbes, UplinkLifecycle.observeOffline,
        UplinkLifecycle.transition]
    | changed s key offline identity => simp [UplinkTransition.retiresProbes,
        UplinkLifecycle.observeChanged, UplinkLifecycle.transition]
    | candidate s key offline identity unconfirmed => simp [UplinkTransition.retiresProbes,
        UplinkLifecycle.observeCandidate, UplinkLifecycle.transition]
    | confirmed s key offline identity confirmed =>
      rw [hh.identity] at identity
      obtain hclosed | ⟨other, hother, hne⟩ := hlost
      · cases hclosed
      · cases key.symm.trans hother
        exact absurd identity hne

/-- **Every sample is sound.** -/
theorem soundSample (hh : h.Agrees) (usizeMax required : ℕ) : SoundSample usizeMax h required := by
  have hagrees := hh.recordLearningSample usizeMax required
  constructor
  · intro havailable
    have hlearned := hagrees.available havailable
    have hconfirmed : (h.step usizeMax (.recordLearningSample required)).lifecycle.routeConfirmed
        = true := by
      by_contra hnot
      obtain ⟨-, hl, -⟩ := hagrees.unconfirmed (by simpa using hnot)
      rw [hl] at hlearned
      cases hlearned
    obtain ⟨key, hlast, -⟩ := hagrees.confirmed hconfirmed
    exact ⟨key, hlast, hagrees.onlyOf hlast, hagrees.learned hlearned⟩
  · constructor
    · intro hlearned
      simp only [UplinkHistory.step, UplinkLifecycle.recordLearningSample]
      split
      · exact hlearned
      · split
        · exact hlearned
        · split <;> rfl
    · simp only [UplinkHistory.step]
      split
      · exact samples_le_cons _ _
      · exact le_refl _

theorem learned_unknown (hh : h.Agrees) (usizeMax : ℕ) {calls : List UplinkCall}
    (hcalls : ∀ call ∈ calls, call.Unknown) (hlearned : h.lifecycle.learned = true) :
    (run (UplinkHistory.step usizeMax) h calls).Agrees ∧
      (run (UplinkHistory.step usizeMax) h calls).lifecycle.learned = true ∧
      (run (UplinkHistory.step usizeMax) h calls).last = h.last := by
  induction calls generalizing h with
  | nil => exact ⟨hh, hlearned, rfl⟩
  | cons call calls ih =>
    have hcall := hcalls call mem_cons_self
    have hrest : ∀ call ∈ calls, call.Unknown :=
      fun call hmem => hcalls call (mem_cons_of_mem _ hmem)
    have hnext : (h.step usizeMax call).lifecycle.learned = true ∧
        (h.step usizeMax call).last = h.last := by
      cases call with
      | observe o =>
        obtain ⟨-, hl, -⟩ := (hh.soundObservation o).unknown hcall.1 hcall.2
        refine ⟨hl.trans hlearned, ?_⟩
        simp [UplinkHistory.step, hcall.1]
      | recordLearningSample required =>
        exact ⟨(hh.soundSample usizeMax required).kept.1 hlearned, rfl⟩
    obtain ⟨hagrees, hl, hlast⟩ := ih (hh.step usizeMax call) hrest hnext.1
    exact ⟨hagrees, hl, hlast.trans hnext.2⟩

theorem available_online (hh : h.Agrees) (hlearned : h.lifecycle.learned = true)
    (honline : s.online = true) (hlast : h.last = some s.stableKey) :
    (h.lifecycle.observe (.ok s)).2.state.available = true ∧
      (h.lifecycle.observe (.ok s)).2.probesAllowed = true := by
  have hconfirmed : h.lifecycle.routeConfirmed = true := by
    by_contra hnot
    obtain ⟨-, hl, -⟩ := hh.unconfirmed (by simpa using hnot)
    rw [hl] at hlearned
    cases hlearned
  have hobserve : h.lifecycle.observe (.ok s) = h.lifecycle.observeConfirmed s := by
    simp [UplinkLifecycle.observe, UplinkLifecycle.observeOnline, honline, hh.identity, hlast,
      hconfirmed]
  rw [hobserve]
  refine ⟨?_, rfl⟩
  simp only [UplinkLifecycle.observeConfirmed, UplinkLifecycle.transition, hlearned]
  cases s.active <;> rfl

end UplinkHistory.Agrees

theorem UplinkHistory.Agrees.along (usizeMax : ℕ) {h : UplinkHistory} (hh : h.Agrees)
    (calls : List UplinkCall) :
    Along (UplinkHistory.step usizeMax) (SoundUplinkCall usizeMax) h calls := by
  induction calls generalizing h with
  | nil => trivial
  | cons call calls ih =>
    refine ⟨?_, ih (hh.step usizeMax call)⟩
    cases call with
    | observe o => exact hh.soundObservation o
    | recordLearningSample required => exact hh.soundSample usizeMax required

/-- **The life cycle of an uplink**, over every sequence of calls: every call is sound, and
an uplink that is available stays so through errors and transient states. -/
theorem uplink_lifecycle_sound (usizeMax : ℕ) (calls : List UplinkCall) :
    Along (UplinkHistory.step usizeMax) (SoundUplinkCall usizeMax) .start calls ∧
      ((run (UplinkHistory.step usizeMax) .start calls).lifecycle.state.available = true →
        ∀ unknown : List UplinkCall, (∀ call ∈ unknown, call.Unknown) →
          ∀ s : RouteSnapshot, s.online = true →
            (run (UplinkHistory.step usizeMax) .start calls).last = some s.stableKey →
              ((run (UplinkHistory.step usizeMax) .start (calls ++ unknown)).lifecycle.observe
                (.ok s)).2.state.available = true) := by
  refine ⟨UplinkHistory.Agrees.start.along usizeMax calls, ?_⟩
  intro havailable unknown hunknown s honline hlast
  have hagrees : (run (UplinkHistory.step usizeMax) .start calls).Agrees :=
    run_invariant (fun h call hh => hh.step usizeMax call) .start calls
  obtain ⟨hagrees', hlearned, hlast'⟩ :=
    hagrees.learned_unknown usizeMax hunknown (hagrees.available havailable)
  rw [run_append]
  exact (hagrees'.available_online hlearned honline (hlast'.trans hlast)).1

end CakeAutorate.Routing

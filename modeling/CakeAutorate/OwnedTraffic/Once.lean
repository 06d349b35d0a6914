/-
# The account of a worker

From a published origin, through any calls of `OwnedTrafficLedger::checkpoint` with any
observations, any of them failing or cut by a crash, and any reloads: the published checkpoint
moves by one debit at a time, the debits' ranges lie one after the other, and a verification that
answers does so with the number and the sums of the debits that were appended.
-/

import CakeAutorate.OwnedTraffic.Debits

namespace CakeAutorate.OwnedTraffic

open Syscall Syscall.Program Protocol OwnedTrafficCheckpoint OwnedTrafficLedger OwnedTrafficSnapshot

variable {r : Reader} {b : Binding} {c : OwnedTrafficCheckpoint} {w : World}
  {ledger : OwnedTrafficLedger} {observed : OwnedTrafficSnapshot}

theorem measure_eq_ok {exceeded : Bool} {debit : SpeedtestTrafficDebit}
    (h : ledger.measure observed = .ok (exceeded, debit)) :
    ledger.committed.counters.Below observed ∧
      debit.rxBytes = observed.rx - ledger.committed.counters.rx ∧
        debit.txBytes = observed.tx - ledger.committed.counters.tx := by
  simp only [OwnedTrafficLedger.measure, bind_ok, deltaSince_eq_ok,
    Except.ok.injEq, Prod.mk.injEq] at h
  obtain ⟨_, -, _, ⟨hbelow, -, rfl⟩, -, rfl⟩ := h
  exact ⟨hbelow, rfl, rfl⟩

def AtLedger (c : OwnedTrafficCheckpoint) (ledger : OwnedTrafficLedger) : Prop :=
  ledger.persistenceUncertain = false → ledger.committed = c

variable {lifecycle : Bool}

/-- **`OwnedTrafficLedger::checkpoint`** on a published checkpoint. -/
theorem wp_commitOwnedSnapshot (hc : Owned b c w) (hphase : Phase b c w)
    (hledger : AtLedger c ledger) :
    wp machine (fun result t => ∃ ledger' answer c', result = .ok (ledger', answer) ∧
        Later b c c' ∧ Owned b c' t ∧ Phase b c' t ∧ AtLedger c' ledger')
      (Kept b c) (ledger.commitOwnedSnapshot r b observed lifecycle) w := by
  have hkept := hc.kept hphase
  have huncertain : ∀ c', AtLedger c' { ledger with persistenceUncertain := true } := by
    intro c' h
    cases h
  have hsame : ∀ (ledger' : OwnedTrafficLedger) (answer : Except String Bool), AtLedger c ledger' →
      wp machine (fun result t => ∃ ledger' answer c', result = .ok (ledger', answer) ∧
          Later b c c' ∧ Owned b c' t ∧ Phase b c' t ∧ AtLedger c' ledger')
        (Kept b c) (.ret (.ok (ledger', answer))) w :=
    fun ledger' answer h => wp_ret hkept ⟨ledger', answer, c, rfl, .inl rfl, hc, hphase, h⟩
  unfold commitOwnedSnapshot checkpoint
  cases hsure : ledger.persistenceUncertain with
  | true =>
    exact hsame ledger _ hledger
  | false =>
  rw [if_neg Bool.false_ne_true]
  obtain hcommitted := hledger hsure
  cases hmeasure : ledger.measure observed with
  | error e => exact hsame _ _ (huncertain c)
  | ok answer =>
  obtain ⟨exceeded, debit⟩ := answer
  obtain ⟨hbelow, hrx, htx⟩ := measure_eq_ok hmeasure
  show wp _ _ _ (if _ then _ else _) w
  by_cases hempty : debit.rxBytes ≠ 0 ∨ debit.txBytes ≠ 0
  swap
  · rw [if_neg hempty]
    exact hsame ledger _ hledger
  rw [if_pos hempty]
  by_cases hsmall : ledger.committed.sequence + 1 < u32Bound
  swap
  · rw [if_neg hsmall]
    exact hsame _ _ (huncertain c)
  rw [if_pos hsmall]
  refine wp_bind (wp_attempt (wp_commitDebitWithIntent hc hphase ?_ rfl ⟨hbelow, hrx, htx⟩ ?_ ?_))
  · rw [hcommitted]
  · intro t hnext howned hphase'
    exact wp_ret ⟨_, .inr hnext, howned, hphase'⟩
      ⟨_, _, _, rfl, .inr hnext, howned, hphase', fun _ => rfl⟩
  · rintro e t ⟨c', hlater, howned, hphase'⟩
    exact wp_ret ⟨c', hlater, howned, hphase'⟩
      ⟨_, _, c', rfl, hlater, howned, hphase', huncertain c'⟩

/-- A session whose directory is at a checkpoint. -/
structure SessionAt (b : Binding) (c : OwnedTrafficCheckpoint) (s : Session) : Prop where
  owned : Owned b c s.world
  phase : Phase b c s.world
  ledger : ∀ ledger, s.ledger = some ledger → AtLedger c ledger

variable {seen : OwnedTrafficSnapshot → Prop} {s s' : Session} {w₀ : World}

/-- **A move keeps the checkpoint or goes on to its successor.** -/
theorem SessionAt.move (h : SessionAt b c s) (hmove : Move r b seen s s') :
    ∃ c', Later b c c' ∧ SessionAt b c' s' := by
  cases hmove with
  | @checkpoint w ledger observed lifecycle o hseen hexec =>
    have hsound := wp_sound
      (wp_commitOwnedSnapshot (r := r) h.owned h.phase (h.ledger ledger rfl)) hexec
    cases o with
    | returned result t =>
      obtain ⟨-, ledger', answer, c', rfl, hlater, howned, hphase, hledger⟩ := hsound
      refine ⟨c', hlater, howned, hphase, ?_⟩
      intro ledger'' heq
      cases heq
      exact hledger
    | crashed t =>
      obtain ⟨c', hlater, howned, hphase⟩ := hsound
      refine ⟨c', hlater, howned, hphase, ?_⟩
      intro ledger' heq
      cases heq
  | @reload w held bytes point authority ledger hfile hread hverified =>
    refine ⟨c, .inl rfl, h.owned, h.phase, ?_⟩
    intro ledger' heq _
    cases heq
    simp only [fromVerifiedCheckpoint, bind_ok, Except.ok.injEq] at hverified
    obtain ⟨_, -, _, -, rfl⟩ := hverified
    exact h.owned.read hfile hread
  | dropped =>
    refine ⟨c, .inl rfl, h.owned, h.phase, ?_⟩
    intro ledger' heq
    cases heq

theorem Origin.at (h : Origin r b w₀) : SessionAt b ⟨0, .zero⟩ ⟨w₀, none⟩ := by
  obtain ⟨bytes, hfile, hread⟩ := h.published
  obtain ⟨hwritten, rfl⟩ := written_of_decodeBound hread
  refine ⟨⟨hwritten, (by decide : 0 < u32Bound), hfile⟩,
    .settled (h.others _ (by decide)) (h.others _ (by decide)) ?_, ?_⟩
  · rw [h.journal]
    exact ⟨.nil _, rfl⟩
  · intro ledger heq
    cases heq

/-- **Every session is at a checkpoint.** -/
theorem Reached.at (h : Reached r b seen w₀ s) : ∃ c, SessionAt b c s := by
  induction h with
  | origin horigin => exact ⟨_, horigin.at⟩
  | step _ hmove ih =>
    obtain ⟨c, hc⟩ := ih
    obtain ⟨c', -, hc'⟩ := hc.move hmove
    exact ⟨c', hc'⟩

def Durable (r : Reader) (b : Binding) (w : World) (c : OwnedTrafficCheckpoint) : Prop :=
  ∃ bytes, w.files .checkpoint = some bytes ∧ decodeBound r bytes b = .ok c

theorem Owned.durable (h : Owned b c w) : Durable r b w c :=
  ⟨_, h.file, decodeBound_line h.written h.small⟩

theorem Later.steps {c' : OwnedTrafficCheckpoint} (h : Later b c c') :
    c' = c ∨ c'.sequence = c.sequence + 1 ∧ c.counters.Below c'.counters := by
  rcases h with h | h
  · exact .inl h
  · exact .inr ⟨h.sequence, h.below⟩

theorem At.totals {journal : List Appended} (h : At c journal) :
    journal.length = c.sequence ∧ (journal.map fun a => a.debit.rxBytes).sum = c.counters.rx ∧
      (journal.map fun a => a.debit.txBytes).sum = c.counters.tx := by
  have hrx := h.chain.sum_rx
  have htx := h.chain.sum_tx
  have hzero : zero.rx = 0 ∧ zero.tx = 0 := ⟨rfl, rfl⟩
  refine ⟨h.length, ?_, ?_⟩ <;> omega

theorem totals_eq_ok {rx tx : String} {n received sent : ℕ}
    (h : c.totals rx tx = .ok (n, received, sent)) :
    n = c.sequence ∧ received = c.counters.rx ∧ sent = c.counters.tx := by
  simp only [totals, bind_ok, checkedAdd_eq_ok, Except.ok.injEq, Prod.mk.injEq] at h
  obtain ⟨_, ⟨-, rfl⟩, _, ⟨-, rfl⟩, rfl, rfl, rfl⟩ := h
  exact ⟨rfl, rfl, rfl⟩

theorem Phase.settled_at (h : Phase b c w) (hintent : w.files .ownedIntent = none) :
    At c w.journal := by
  cases h with
  | settled _ _ hat => exact hat
  | noted _ _ hheld =>
    rcases hheld with hheld | ⟨_, -, -, hheld⟩ <;> · rw [hintent] at hheld; cases hheld
  | appended _ _ hheld => rw [hintent] at hheld; cases hheld
  | published hheld => rw [hintent] at hheld; cases hheld

/-- **`verify_owned_accounting_checkpoint`**: an answer is the number and the sums of the debits. -/
theorem wp_verify {request : OwnedRequest} {worker : Bytes} (hc : Owned b c w)
    (hphase : Phase b c w) :
    wp machine (fun result t => t = w ∧ ∀ n rx tx, result = .ok (n, rx, tx) →
        w.journal.length = n ∧ (w.journal.map fun a => a.debit.rxBytes).sum = rx ∧
          (w.journal.map fun a => a.debit.txBytes).sum = tx) (fun _ => True)
      (verifyOwnedAccountingCheckpoint r request worker) w := by
  have herr :
    ∀ e : String, w = w ∧ ∀ n rx tx, (.error e : Except String (ℕ × ℕ × ℕ)) = .ok (n, rx, tx) →
      w.journal.length = n ∧ (w.journal.map fun a => a.debit.rxBytes).sum = rx ∧
        (w.journal.map fun a => a.debit.txBytes).sum = tx := by
    intro e
    refine ⟨rfl, fun n rx tx heq => ?_⟩
    cases heq
  refine wp_bind (wp_lift trivial ?_)
  cases check request.trafficPolicyExplicit
      "owned accounting requires an explicit traffic policy" with
  | error e => exact herr e
  | ok _ =>
  refine wp_bind (wp_lift trivial ?_)
  cases check (hexOf 32 worker) "owned accounting worker identity is invalid" with
  | error e => exact herr e
  | ok _ =>
  refine wp_bind (wp_requirePrivateDirectory trivial ?_ herr)
  refine wp_bind (wp_requireAbsent trivial (fun hintent => ?_) herr)
  refine wp_bind (wp_requireAbsent trivial (fun _ => ?_) herr)
  refine wp_bind (wp_read trivial (fun bytes hfile _ => ?_) herr)
  refine wp_bind (wp_lift trivial ?_)
  cases request.binding worker with
  | error e => exact herr e
  | ok b' =>
  refine wp_bind (wp_lift trivial ?_)
  cases hread : decodeBound r bytes b' with
  | error e => exact herr e
  | ok point =>
  obtain rfl := hc.read hfile hread
  refine wp_lift trivial ⟨rfl, fun n rx tx heq => ?_⟩
  obtain ⟨rfl, rfl, rfl⟩ := totals_eq_ok heq
  exact (hphase.settled_at hintent).totals

/-- **A reading below the committed one is refused**: nothing is changed and nothing appended. -/
theorem wp_refused (h : ¬ledger.committed.counters.Below observed) :
    wp machine (fun result t => t = w ∧ ∃ ledger' e, result = .ok (ledger', .error e))
      (fun t => t = w) (ledger.commitOwnedSnapshot r b observed lifecycle) w := by
  unfold commitOwnedSnapshot checkpoint
  cases ledger.persistenceUncertain with
  | true =>
    exact wp_ret rfl ⟨rfl, _, _, rfl⟩
  | false =>
    cases hmeasure : ledger.measure observed with
    | error e => exact wp_ret rfl ⟨rfl, _, _, rfl⟩
    | ok answer => exact absurd (measure_eq_ok hmeasure).1 h

/-- What is promised in a session. -/
structure Accounted (r : Reader) (b : Binding) (seen : OwnedTrafficSnapshot → Prop) (s : Session) :
    Prop where
  /-- The stored checkpoint stays or goes on to the next one. -/
  durable : ∃ c, Durable r b s.world c ∧ ∀ s', Move r b seen s s' → ∃ c', Durable r b s'.world c' ∧
    (c' = c ∨ c'.sequence = c.sequence + 1 ∧ c.counters.Below c'.counters)
  /-- A verification answers the number and the sums of the debits appended. -/
  verified : ∀ request worker n rx tx w',
    Exec machine (verifyOwnedAccountingCheckpoint r request worker) s.world
      (.returned (.ok (n, rx, tx)) w') →
    s.world.journal.length = n ∧ (s.world.journal.map fun a => a.debit.rxBytes).sum = rx ∧
      (s.world.journal.map fun a => a.debit.txBytes).sum = tx
  apart : s.world.journal.Pairwise fun a a' => a.upto.Below a'.since
  /-- A ledger that is certain is at the stored checkpoint, and an observation below it is refused
  with nothing changed. -/
  refused : ∀ ledger, s.ledger = some ledger →
    (ledger.persistenceUncertain = false → Durable r b s.world ledger.committed) ∧
    ∀ observed lifecycle, ¬ledger.committed.counters.Below observed → ∀ o,
      Exec machine (ledger.commitOwnedSnapshot r b observed lifecycle) s.world o →
      o = .crashed s.world ∨ ∃ ledger' e, o = .returned (.ok (ledger', .error e)) s.world

/-- **Owned traffic is debited once**, in every session from a published origin. -/
theorem owned_traffic_debited_once (r : Reader) (b : Binding) (seen : OwnedTrafficSnapshot → Prop)
    {w₀ : World} {s : Session} (h : Reached r b seen w₀ s) : Accounted r b seen s := by
  obtain ⟨c, hc⟩ := h.at
  refine ⟨⟨c, hc.owned.durable, fun s' hmove => ?_⟩, fun request worker n rx tx w' hexec => ?_, ?_,
    fun ledger hledger => ⟨fun hsure => ?_, fun observed lifecycle hbelow o hexec => ?_⟩⟩
  · obtain ⟨c', hlater, hc'⟩ := hc.move hmove
    exact ⟨c', hc'.owned.durable, hlater.steps⟩
  · exact (wp_sound (wp_verify hc.owned hc.phase) hexec).2.2 n rx tx rfl
  · cases hc.phase with
    | settled _ _ hat => exact hat.chain.apart
    | noted _ _ _ _ hat => exact hat.chain.apart
    | appended _ _ _ _ hat => exact hat.chain.apart
    | published _ _ hat => exact hat.chain.apart
  · rw [hc.ledger ledger hledger hsure]
    exact hc.owned.durable
  · have hsound := wp_sound (wp_refused hbelow) hexec
    cases o with
    | returned result t =>
      obtain ⟨-, rfl, ledger', e, rfl⟩ := hsound
      exact .inr ⟨ledger', e, rfl⟩
    | crashed t => exact .inl (congrArg _ hsound)

def sampleRequest : OwnedRequest := ⟨List.replicate 32 0x61, .ok (ascii "traffic capped"), true⟩

def sampleWorker : Bytes := List.replicate 32 0x62

def sampleBinding : Binding := ⟨sampleRequest.jobId, sampleWorker, sha256 (ascii "traffic capped")⟩

def sampleOrigin : World where
  files name := if name = .checkpoint then
    some (line (payload ⟨0, .zero⟩ sampleBinding)) else none
  journal := []
  kernel := .zero
  frozen := false
  early := false
  cuts := []

theorem sampleOrigin_published :
    Durable Json.reader sampleBinding sampleOrigin ⟨0, .zero⟩ := by
  have hwritten : OwnedTrafficCheckpoint.Written ⟨0, .zero⟩ sampleBinding :=
    ⟨by decide, by decide, by decide +kernel, by decide, by decide⟩
  exact ⟨_, rfl, decodeBound_line hwritten (by decide)⟩

/-- A ledger that is loaded from a checkpoint. -/
def loaded (c : OwnedTrafficCheckpoint) : OwnedTrafficLedger := ⟨.capped 100000, c, false⟩

def firstReading : OwnedTrafficSnapshot := ⟨⟨700, 300⟩, ⟨50, 20⟩⟩

def firstDebit : Except String (OwnedTrafficLedger × Except String Bool) × World :=
  answered exec ((loaded ⟨0, .zero⟩).commitOwnedSnapshot Json.reader sampleBinding firstReading false)
    sampleOrigin

/-- An append that has happened is reported as failed. -/
def reportedFailed : (c : Call) → World → Reply c × World
  | .run (.appendDebit a), w => (false, w.append a)
  | c, w => exec c w

theorem reportedFailed_allowed (c : Call) (w : World) :
    exec c w = reportedFailed c w ∨
      refused c w (reportedFailed c w).1 (reportedFailed c w).2 := by
  unfold reportedFailed
  split
  · exact .inr ⟨rfl, .inr rfl⟩
  · exact .inl rfl

def secondDebit : Except String (OwnedTrafficLedger × Except String Bool) × World :=
  answered reportedFailed ((loaded ⟨1, firstReading⟩).commitOwnedSnapshot Json.reader sampleBinding
    ⟨⟨900, 300⟩, ⟨60, 25⟩⟩ true) firstDebit.2

theorem debits_answered :
    (firstDebit.1.toOption.map fun p =>
        (p.1.authority, p.1.committed, p.1.persistenceUncertain, p.2)) =
      some (.capped 100000, ⟨1, firstReading⟩, false, .ok false) ∧
    (answered exec (verifyOwnedAccountingCheckpoint Json.reader sampleRequest sampleWorker)
      firstDebit.2).1.toOption = some (1, 750, 320) ∧
    (secondDebit.1.toOption.map fun p => (p.1.persistenceUncertain, p.2)) =
      some (true, .error "owned debit append failed") ∧
    (secondDebit.2.journal.map fun a => (a.debit.rxBytes, a.debit.txBytes)) =
      [(750, 320), (210, 5)] ∧
    ((secondDebit.2.files .checkpoint).bind fun bytes =>
      (decodeBound Json.reader bytes sampleBinding).toOption) = some ⟨1, firstReading⟩ := by
  decide +kernel

variable {held : Option OwnedTrafficLedger}

theorem Reached.reloaded (h : Reached r b seen w₀ ⟨w, held⟩) (hdurable : Durable r b w c)
    (hloaded : fromVerifiedCheckpoint (.capped 100000) c = .ok (loaded c)) :
    Reached r b seen w₀ ⟨w, some (loaded c)⟩ := by
  obtain ⟨bytes, hfile, hread⟩ := hdurable
  exact .step h (.reload hfile hread hloaded)

theorem Reached.called {ledger ledger' : OwnedTrafficLedger} {answer : Except String Bool}
    {w' : World} (h : Reached r b seen w₀ ⟨w, some ledger⟩) (hseen : seen observed)
    (hexec : Exec machine (ledger.commitOwnedSnapshot r b observed lifecycle) w
      (.returned (.ok (ledger', answer)) w')) :
    Reached r b seen w₀ ⟨w', some ledger'⟩ :=
  .step h (.checkpoint hseen hexec)

theorem Accounted.counted {request : OwnedRequest} {worker : Bytes} {n received sent : ℕ}
    {w' : World} (h : Accounted r b seen ⟨w, held⟩)
    (hexec : Exec machine (verifyOwnedAccountingCheckpoint r request worker) w
      (.returned (.ok (n, received, sent)) w')) :
    w.journal.length = n ∧ (w.journal.map fun a => a.debit.rxBytes).sum = received ∧
      (w.journal.map fun a => a.debit.txBytes).sum = sent :=
  h.verified _ _ _ _ _ _ hexec

/-- **A reload, a debit, another whose append is reported as failed** although it has happened, and a
reload: what is promised in the session after each. -/
theorem debits_accounted :
    ∃ ledger : OwnedTrafficLedger,
      firstDebit.1 = .ok (loaded ⟨1, firstReading⟩, .ok false) ∧
      Accounted Json.reader sampleBinding (fun _ => True)
        ⟨firstDebit.2, some (loaded ⟨1, firstReading⟩)⟩ ∧
      (firstDebit.2.journal.length = 1 ∧
        (firstDebit.2.journal.map fun a => a.debit.rxBytes).sum = 750 ∧
        (firstDebit.2.journal.map fun a => a.debit.txBytes).sum = 320) ∧
      secondDebit.1 = .ok (ledger, .error "owned debit append failed") ∧
      ledger.persistenceUncertain = true ∧
      (secondDebit.2.journal.map fun a => (a.debit.rxBytes, a.debit.txBytes)) =
        [(750, 320), (210, 5)] ∧
      Accounted Json.reader sampleBinding (fun _ => True) ⟨secondDebit.2, some ledger⟩ ∧
      Accounted Json.reader sampleBinding (fun _ => True)
        ⟨secondDebit.2, some (loaded ⟨1, firstReading⟩)⟩ := by
  obtain ⟨hfirst, hverified, hsecond, hjournal, hcheckpoint⟩ := debits_answered
  obtain ⟨⟨⟨_, _, _⟩, _⟩, hanswer, hfields⟩ := Option.map_eq_some_iff.mp hfirst
  simp only [Prod.mk.injEq] at hfields
  obtain ⟨rfl, rfl, rfl, rfl⟩ := hfields
  replace hfirst := ok_of_toOption hanswer
  obtain ⟨⟨ledger, _⟩, hanswer', hfields⟩ := Option.map_eq_some_iff.mp hsecond
  simp only [Prod.mk.injEq] at hfields
  obtain ⟨huncertain, rfl⟩ := hfields
  replace hsecond := ok_of_toOption hanswer'
  have horigin : Reached Json.reader sampleBinding (fun _ => True) sampleOrigin
      ⟨sampleOrigin, none⟩ :=
    .origin ⟨sampleOrigin_published, fun _ hname => if_neg hname, rfl⟩
  have hloaded := horigin.reloaded sampleOrigin_published rfl
  have hexec : Exec machine ((loaded ⟨0, .zero⟩).commitOwnedSnapshot Json.reader sampleBinding
      firstReading false) sampleOrigin (.returned firstDebit.1 firstDebit.2) := exec_answered _ _
  rw [hfirst] at hexec
  have hrun := hloaded.called trivial hexec
  have hexec' : Exec machine ((loaded ⟨1, firstReading⟩).commitOwnedSnapshot Json.reader
      sampleBinding ⟨⟨900, 300⟩, ⟨60, 25⟩⟩ true) firstDebit.2
      (.returned secondDebit.1 secondDebit.2) := exec_chosen reportedFailed_allowed _ _
  rw [hsecond] at hexec'
  have hrun' := hrun.called trivial hexec'
  have hfirstAccounted := owned_traffic_debited_once _ _ _ hrun
  have hdurable : Durable Json.reader sampleBinding secondDebit.2 ⟨1, firstReading⟩ := by
    obtain ⟨bytes, hfile, hread⟩ := Option.bind_eq_some_iff.mp hcheckpoint
    exact ⟨bytes, hfile, ok_of_toOption hread⟩
  have hverify : Exec machine (verifyOwnedAccountingCheckpoint Json.reader sampleRequest
      sampleWorker) firstDebit.2 _ := exec_answered _ _
  rw [ok_of_toOption hverified] at hverify
  have hcounted := hfirstAccounted.counted hverify
  exact ⟨ledger, hfirst, hfirstAccounted, hcounted, hsecond, huncertain,
    hjournal, owned_traffic_debited_once _ _ _ hrun',
    owned_traffic_debited_once _ _ _ (hrun'.reloaded hdurable rfl)⟩

end CakeAutorate.OwnedTraffic

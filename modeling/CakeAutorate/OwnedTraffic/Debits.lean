/-
# Owned traffic is debited once

What a directory can hold between the calls of a ledger and after a crash inside one, and that every
call keeps it. Without an intent the journal is at the checkpoint. While there is an intent nothing
is appended.
-/

import CakeAutorate.OwnedTraffic.Ledger

namespace CakeAutorate.OwnedTraffic

open Syscall Syscall.Program Protocol World OwnedTrafficCheckpoint List

/-- A debit is what its two readings differ by. -/
structure Appended.Covers (a : Appended) : Prop where
  below : a.since.Below a.upto
  rx : a.debit.rxBytes = a.upto.rx - a.since.rx
  tx : a.debit.txBytes = a.upto.tx - a.since.tx

/-- Debits that lead from one reading to another. -/
inductive Chain : OwnedTrafficSnapshot → List Appended → OwnedTrafficSnapshot → Prop where
  | nil (s : OwnedTrafficSnapshot) : Chain s [] s
  | snoc {s t : OwnedTrafficSnapshot} {journal : List Appended} {a : Appended} :
      Chain s journal t → a.since = t → a.Covers → Chain s (journal ++ [a]) a.upto

namespace Chain

variable {s t : OwnedTrafficSnapshot} {journal : List Appended}

section

variable (h : Chain s journal t)
include h

theorem upto_below : ∀ a ∈ journal, a.upto.Below t := by
  induction h with
  | nil =>
    intro a ha
    cases ha
  | snoc _ hsince hcovers ih =>
    intro a' ha'
    rcases mem_append.mp ha' with hold | hlast
    · exact (ih a' hold).trans (hsince ▸ hcovers.below)
    · rw [mem_singleton.mp hlast]
      exact .refl _

/-- **The ranges do not overlap.** -/
theorem apart : journal.Pairwise fun a a' => a.upto.Below a'.since := by
  induction h with
  | nil => exact .nil
  | snoc hchain hsince _ ih =>
    refine pairwise_append.mpr ⟨ih, pairwise_singleton _ _, ?_⟩
    intro a ha a' ha'
    rw [mem_singleton.mp ha', hsince]
    exact hchain.upto_below a ha

/-- **The debits sum to what was received.** -/
theorem sum_rx : s.rx + (journal.map fun a => a.debit.rxBytes).sum = t.rx := by
  induction h with
  | nil => rfl
  | snoc _ hsince hcovers ih =>
    have hrx := hcovers.rx
    have hle := hcovers.below.rx_le
    rw [hsince] at hrx hle
    rw [map_append, sum_append, map_singleton, sum_singleton]
    omega

theorem sum_tx : s.tx + (journal.map fun a => a.debit.txBytes).sum = t.tx := by
  induction h with
  | nil => rfl
  | snoc _ hsince hcovers ih =>
    have htx := hcovers.tx
    have hle := hcovers.below.tx_le
    rw [hsince] at htx hle
    rw [map_append, sum_append, map_singleton, sum_singleton]
    omega

end

end Chain

/-- The journal is at a checkpoint. -/
structure At (c : OwnedTrafficCheckpoint) (journal : List Appended) : Prop where
  chain : Chain .zero journal c.counters
  length : journal.length = c.sequence

/-- The successor of a checkpoint. -/
structure Next (b : Binding) (c q : OwnedTrafficCheckpoint) : Prop where
  sequence : q.sequence = c.sequence + 1
  small : q.sequence < u32Bound
  below : c.counters.Below q.counters
  nonempty : c.counters.rx ≠ q.counters.rx ∨ c.counters.tx ≠ q.counters.tx
  written : OwnedTrafficCheckpoint.Written q b

def Holds (b : Binding) (w : World) (name : Name) (q : OwnedTrafficCheckpoint) : Prop :=
  w.files name = some (line (q.payload b)) ∨
    ∃ left, left <+: line (q.payload b) ∧ left ≠ line (q.payload b) ∧ w.files name = some left

/-- The published checkpoint. -/
structure Owned (b : Binding) (c : OwnedTrafficCheckpoint) (w : World) : Prop where
  written : OwnedTrafficCheckpoint.Written c b
  small : c.sequence < u32Bound
  file : w.files .checkpoint = some (line (c.payload b))

/-- How far the debit after a checkpoint is. -/
inductive Phase (b : Binding) (c : OwnedTrafficCheckpoint) (w : World) : Prop where
  | settled : w.files .ownedIntent = none → w.files .ownedNext = none → At c w.journal → Phase b c w
  | noted (q : OwnedTrafficCheckpoint) : Next b c q → Holds b w .ownedIntent q →
      w.files .ownedNext = none → At c w.journal → Phase b c w
  | appended (q : OwnedTrafficCheckpoint) : Next b c q →
      w.files .ownedIntent = some (line (q.payload b)) →
      (w.files .ownedNext = none ∨ Holds b w .ownedNext q) → At q w.journal → Phase b c w
  | published : w.files .ownedIntent = some (line (c.payload b)) → w.files .ownedNext = none →
      At c w.journal → Phase b c w

def Later (b : Binding) (c c' : OwnedTrafficCheckpoint) : Prop := c' = c ∨ Next b c c'

/-- A directory that a call on the checkpoint `c` may leave. -/
def Kept (b : Binding) (c : OwnedTrafficCheckpoint) (w : World) : Prop :=
  ∃ c', Later b c c' ∧ Owned b c' w ∧ Phase b c' w

section

variable {r : Reader} {b : Binding} {c q : OwnedTrafficCheckpoint} {w : World}

theorem Owned.kept (h : Owned b c w) (hphase : Phase b c w) : Kept b c w :=
  ⟨c, .inl rfl, h, hphase⟩

theorem Owned.read {b' : Binding} {bytes : Bytes} (h : Owned b c w)
    (hfile : w.files .checkpoint = some bytes)
    (hread : decodeBound r bytes b' = .ok q) : q = c := by
  rw [h.file, Option.some.injEq] at hfile
  rw [← hfile] at hread
  exact eq_of_decodeBound h.written h.small hread

theorem Owned.of_files {w' : World} (h : Owned b c w)
    (hfile : w'.files .checkpoint = w.files .checkpoint) : Owned b c w' :=
  ⟨h.written, h.small, hfile.trans h.file⟩

theorem Next.at {journal : List Appended} {a : Appended} (hq : Next b c q) (h : At c journal)
    (hsince : a.since = c.counters) (hupto : a.upto = q.counters) (hcovers : a.Covers) :
    At q (journal ++ [a]) := by
  constructor
  · rw [← hupto]
    exact .snoc h.chain hsince hcovers
  · rw [length_append, h.length, hq.sequence]
    rfl

/-- **`follows`**: what a point that follows the published one is, beside its encoding. -/
theorem follows_eq_ok {gap empty : String} (h : q.follows c gap empty = .ok ()) :
    q.sequence = c.sequence + 1 ∧ q.sequence < u32Bound ∧ c.counters.Below q.counters ∧
      (c.counters.rx ≠ q.counters.rx ∨ c.counters.tx ≠ q.counters.tx) := by
  simp only [follows, bind_ok, exists_unit, check_ok,
    decide_eq_true_eq, OwnedTrafficSnapshot.deltaSince_eq_ok] at h
  obtain ⟨⟨hsmall, hsequence⟩, _, ⟨hbelow, -, rfl⟩, hnonempty⟩ := h
  refine ⟨hsequence.symm, hsequence ▸ hsmall, hbelow, ?_⟩
  simp only [Bool.not_eq_true', Bool.and_eq_false_iff, beq_eq_false_iff_ne] at hnonempty
  omega

variable {Q : Except String Unit → World → Prop} {I : World → Prop}

theorem wp_readCheckpoint {Q : Except String OwnedTrafficCheckpoint → World → Prop}
    {label : String} (h : Owned b c w) (hI : I w) (hok : Q (.ok c) w) (herr : ∀ e, Q (.error e) w) :
    wp machine Q I (readCheckpoint r .checkpoint label b) w := by
  refine wp_bind (wp_read hI ?_ herr)
  intro bytes hfile _
  refine wp_lift hI ?_
  cases hread : decodeBound r bytes b with
  | error e => exact herr e
  | ok q =>
    rw [h.read hfile hread]
    exact hok

theorem wp_requireAbsent {name : Name} {present error : String} (hI : I w)
    (hok : w.files name = none → Q (.ok ()) w) (herr : ∀ e, Q (.error e) w) :
    wp machine Q I (requireAbsent name present error) w :=
  wp_whether hI (fun _ _ => wp_ret hI (herr _)) (fun h => wp_ret hI (hok h)) (herr _)

/-- **`publish_bound`** of the successor whose debit was appended. -/
theorem wp_publishBound (hc : Owned b c w) (hq : Next b c q)
    (hintent : w.files .ownedIntent = some (line (q.payload b))) (hat : At q w.journal)
    (hstaged : w.files .ownedNext = none)
    (hok : ∀ t, Owned b q t → t.files .ownedIntent = some (line (q.payload b)) →
      t.files .ownedNext = none → At q t.journal → Q (.ok ()) t)
    (herr : ∀ e t, Kept b c t → Q (.error e) t) :
    wp machine Q (Kept b c) (q.publishBound r b) w := by
  have hkept : Kept b c w := hc.kept (.appended q hq hintent (.inl hstaged) hat)
  refine wp_bind (wp_requirePrivateDirectory hkept ?_ fun e => herr e w hkept)
  have hencoded : q.encodeBound b = .ok (line (q.payload b)) :=
    encodeBound_eq_ok.mpr ⟨hq.written, rfl⟩
  refine wp_bind (wp_lift hkept ?_)
  rw [hencoded]
  refine wp_bind (wp_requireAbsent hkept (fun _ => ?_) fun e => herr e w hkept)
  refine wp_bind (wp_whether hkept ?_ ?_ (herr _ w hkept))
  · intro bytes _
    refine wp_bind (wp_readCheckpoint hc hkept ?_ fun e => herr e w hkept)
    have hne : c ≠ q := by
      rintro rfl
      have := hq.sequence
      omega
    show wp _ _ _ (if c = q then _ else _) w
    rw [if_neg hne]
    refine wp_bind (wp_lift hkept ?_)
    cases q.follows c "owned traffic checkpoint sequence is not contiguous"
        "owned traffic checkpoint has no new bytes" with
    | error e => exact herr e w hkept
    | ok _ =>
      refine wp_bind (wp_whether hkept ?_ ?_ (herr _ w hkept))
      · intro bytes hbytes
        rw [hstaged] at hbytes
        cases hbytes
      · intro _
        refine wp_ret hkept (wp_bind (wp_writeNewPrivateFile hkept ?_ ?_ fun e => herr e w hkept))
        · intro _ left hleft hne'
          have hcut : Kept b c (w.cut .ownedNext left (line (q.payload b))) := by
            refine ⟨c, .inl rfl, hc.of_files (cut_ne (by decide) _ _), .appended q hq ?_ ?_ hat⟩
            · rw [cut_ne (by decide)]
              exact hintent
            · exact .inr (.inr ⟨left, hleft, hne', cut_self _ _ _⟩)
          exact ⟨hcut, fun e => herr e _ hcut⟩
        · intro _
          generalize hs : w.set .ownedNext (some (line (q.payload b))) = s
          have hfiles : ∀ name, name ≠ .ownedNext → s.files name = w.files name := by
            intro name hname
            rw [← hs]
            exact set_ne hname _
          have hnext : s.files .ownedNext = some (line (q.payload b)) := by
            rw [← hs]
            exact set_self _ _
          have hjournal : s.journal = w.journal := by
            rw [← hs]
            rfl
          have hstage : Kept b c s := by
            refine ⟨c, .inl rfl, hc.of_files (hfiles _ (by decide)), .appended q hq ?_ ?_ ?_⟩
            · rw [hfiles _ (by decide)]
              exact hintent
            · exact .inr (.inl hnext)
            · rw [hjournal]
              exact hat
          refine ⟨hstage, fun result => ?_⟩
          cases result with
          | error e => exact herr e s hstage
          | ok _ =>
            generalize ht : (s.set .ownedNext none).set .checkpoint (some (line (q.payload b))) = t
            have howned : Owned b q t := by
              refine ⟨hq.written, hq.small, ?_⟩
              rw [← ht]
              exact set_self _ _
            have hintent' : t.files .ownedIntent = some (line (q.payload b)) := by
              rw [← ht, set_ne (by decide), set_ne (by decide), hfiles _ (by decide)]
              exact hintent
            have hnext' : t.files .ownedNext = none := by
              rw [← ht, set_ne (by decide)]
              exact set_self _ _
            have hat' : At q t.journal := by
              rw [← ht, set_journal, set_journal, hjournal]
              exact hat
            have hdone : Kept b c t := ⟨q, .inr hq, howned, .published hintent' hnext' hat'⟩
            refine wp_rename hnext hstage ?_ (herr _ s hstage)
            rw [ht]
            exact ⟨hdone, wp_syncDirectory hdone (hok t howned hintent' hnext' hat')
              fun e => herr e t hdone⟩
  · intro habsent
    rw [hc.file] at habsent
    cases habsent

/-- **`commit_debit_with_intent`.** -/
theorem wp_commitDebitWithIntent {a : Appended} {error : String} (hc : Owned b c w)
    (hphase : Phase b c w) (hsince : a.since = c.counters) (hupto : a.upto = q.counters)
    (hcovers : a.Covers)
    (hok : ∀ t, Next b c q → Owned b q t → Phase b q t → Q (.ok ()) t)
    (herr : ∀ e t, Kept b c t → Q (.error e) t) :
    wp machine Q (Kept b c) (q.commitDebitWithIntent r b (succeed (.appendDebit a) error)) w := by
  have hkept := hc.kept hphase
  refine wp_bind (wp_requirePrivateDirectory hkept ?_ fun e => herr e w hkept)
  refine wp_bind (wp_readCheckpoint hc hkept ?_ fun e => herr e w hkept)
  refine wp_bind (wp_lift hkept ?_)
  cases hfollows : q.follows c "owned debit intent is not contiguous"
      "owned debit intent is empty" with
  | error e => exact herr e w hkept
  | ok _ =>
  obtain ⟨hsequence, hsmall, hbelow, hnonempty⟩ := follows_eq_ok hfollows
  refine wp_bind (wp_lift hkept ?_)
  cases hencoded : q.encodeBound b with
  | error e => exact herr e w hkept
  | ok encoded =>
  obtain ⟨hwritten, rfl⟩ := encodeBound_eq_ok.mp hencoded
  have hq : Next b c q := ⟨hsequence, hsmall, hbelow, hnonempty, hwritten⟩
  -- the intent can only be created where there is none, and then the journal is at `c`
  have hsettled : w.files .ownedIntent = none → w.files .ownedNext = none ∧ At c w.journal := by
    intro hnone
    cases hphase with
    | settled _ hnext hat => exact ⟨hnext, hat⟩
    | noted _ _ hintent =>
      rcases hintent with hintent | ⟨_, -, -, hintent⟩ <;> · rw [hnone] at hintent; cases hintent
    | appended _ _ hintent => rw [hnone] at hintent; cases hintent
    | published hintent => rw [hnone] at hintent; cases hintent
  refine wp_bind (wp_writeNewPrivateFile hkept ?_ ?_ fun e => herr e w hkept)
  · intro hnone left hleft hne
    obtain ⟨hnext, hat⟩ := hsettled hnone
    have hcut : Kept b c (w.cut .ownedIntent left (line (q.payload b))) := by
      refine ⟨c, .inl rfl, hc.of_files (cut_ne (by decide) _ _), .noted q hq ?_ ?_ hat⟩
      · exact .inr ⟨left, hleft, hne, cut_self _ _ _⟩
      · rw [cut_ne (by decide)]
        exact hnext
    exact ⟨hcut, fun e => herr e _ hcut⟩
  · intro hnone
    obtain ⟨hnext, hat⟩ := hsettled hnone
    generalize hs : w.set .ownedIntent (some (line (q.payload b))) = s
    have hc' : Owned b c s := by
      refine hc.of_files ?_
      rw [← hs]
      exact set_ne (by decide) _
    have hintent : s.files .ownedIntent = some (line (q.payload b)) := by
      rw [← hs]
      exact set_self _ _
    have hnext' : s.files .ownedNext = none := by
      rw [← hs, set_ne (by decide)]
      exact hnext
    have hat' : At c s.journal := by
      rw [← hs]
      exact hat
    have hnoted : Kept b c s := hc'.kept (.noted q hq (.inl hintent) hnext' hat')
    refine ⟨hnoted, fun result => ?_⟩
    cases result with
    | error e => exact herr e s hnoted
    | ok _ =>
    refine wp_bind (wp_syncDirectory hnoted ?_ fun e => herr e s hnoted)
    have hatq := hq.at hat' hsince hupto hcovers
    have hfiles : Owned b c (s.append a) := hc'.of_files rfl
    have happended : Kept b c (s.append a) :=
      hfiles.kept (.appended q hq hintent (.inl hnext') hatq)
    refine wp_bind (wp_succeed hnoted (fun _ => ⟨happended, ?_⟩) ?_ (herr _ s hnoted) ?_)
    · refine wp_bind (wp_publishBound (hc'.of_files rfl) hq hintent hatq hnext' ?_ herr)
      intro t howned hintentt hnextt hatt
      have hpublished : Kept b c t := ⟨q, .inr hq, howned, .published hintentt hnextt hatt⟩
      refine wp_bind (wp_read hpublished ?_ fun e => herr e t hpublished)
      intro bytes _ _
      refine wp_bind (wp_lift hpublished ?_)
      cases check (bytes == line (q.payload b))
          "owned debit intent changed before acknowledgement" with
      | error e => exact herr e t hpublished
      | ok _ =>
      have hexec : (Op.removeFile .ownedIntent).exec t = (true, t.set .ownedIntent none) := by
        simp [Op.exec, hintentt]
      have howned' : Owned b q (t.set .ownedIntent none) :=
        howned.of_files (set_ne (by decide) _)
      have hsettledt : Phase b q (t.set .ownedIntent none) := by
        refine .settled (set_self _ _) ?_ hatt
        exact hnextt
      have hdone : Kept b c (t.set .ownedIntent none) := ⟨q, .inr hq, howned', hsettledt⟩
      refine wp_bind (wp_succeed hpublished ?_ ?_ (herr _ t hpublished) fun _ h => absurd h id)
      · intro _
        rw [hexec]
        exact ⟨hdone, wp_syncDirectory hdone (hok _ hq howned' hsettledt) fun e => herr e _ hdone⟩
      · intro hr
        rw [hexec] at hr
        cases hr
    · intro hr
      cases hr
    · rintro w' rfl
      exact ⟨happended, herr _ _ happended⟩

end

end CakeAutorate.OwnedTraffic

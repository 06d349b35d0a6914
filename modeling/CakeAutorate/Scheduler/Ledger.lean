/-
# The traffic ledger

`BudgetLedger` of `operations/scheduler.rs`: what one instance may spend on scheduled traffic in a
day and in a month.  A reservation is charged in full before its job runs; the settlement replaces
the charge by what was consumed, in the period it falls into, and an acknowledgement leaves the full
charge standing.

`Books` is the ledger with the history of its calls: every reservation that was closed, and how.
-/

import CakeAutorate.Scheduler.Cursor
import Mathlib.Data.Char
import Mathlib.Data.List.Lex
import Mathlib.Algebra.BigOperators.Group.List.Basic

namespace CakeAutorate.Scheduler

open Wire Protocol List Option Bool

/-- The number that digits spell, as `parse` reads them. -/
def digitsValue (digits : Text) : ℕ := Nat.ofDigitChars 10 digits 0

/-- `validate_period`, the last day of a month. -/
def maximumDay (year month : ℕ) : ℕ :=
  if month = 2 then (if year % 4 = 0 ∧ (year % 100 ≠ 0 ∨ year % 400 = 0) then 29 else 28)
  else if month ∈ [4, 6, 9, 11] then 30 else 31

/-- `validate_period`: `YYYYMMDD` of the Gregorian calendar, and its `YYYYMM`.  Both are
digits when the date is parsed, so no parse fails. -/
def validatePeriod (day month : Text) : Except String Unit := do
  check (!(byteLength day != 8 || byteLength month != 6 || !day.all Char.isDigit
    || !month.all Char.isDigit || !month.isPrefixOf day)) "scheduler budget period is invalid"
  let year := digitsValue (day.take 4)
  let parsedMonth := digitsValue ((day.drop 4).take 2)
  let parsedDay := digitsValue ((day.drop 6).take 2)
  check (decide (1970 ≤ year ∧ year ≤ 9999) && decide (1 ≤ parsedMonth ∧ parsedMonth ≤ 12))
    "scheduler budget calendar date is invalid"
  check (!(parsedDay == 0 || decide (parsedDay > maximumDay year parsedMonth)))
    "scheduler budget calendar date is invalid"

def validateAccountedBytes (name : String) (value : ℕ) : Except String Unit :=
  check (!decide (value > maxExactBytes)) (name ++ " exceeds the exact accounting range")

def checkedBytesAdd (lhs rhs : ℕ) (name : String) : Except String ℕ := do
  let value ← checkedAdd lhs rhs (name ++ " overflow")
  validateAccountedBytes name value
  return value

/-- `replace_reservation_charge`, the charge without the reservation. -/
def withoutReservation (charged reserved : ℕ) (name : String) : Except String ℕ :=
  if reserved ≤ charged then .ok (charged - reserved)
  else .error (name ++ " is missing its reservation charge")

def replaceReservationCharge (charged reserved consumed : ℕ) (name : String) : Except String ℕ := do
  let without ← withoutReservation charged reserved name
  checkedBytesAdd without consumed name

/-- Bytes held back for a job. -/
structure BudgetReservation where
  reservationId : Text
  jobId : Text
  day : Text
  month : Text
  reservedBytes : ℕ
  authority : FailedAttemptFence
  deriving DecidableEq

def BudgetReservation.validate (r : BudgetReservation) : Except String Unit := do
  requireLowerHex "scheduler reservation id" r.reservationId 32
  requireLowerHex "scheduler reservation job id" r.jobId 32
  validatePeriod r.day r.month
  r.authority.validate
  check (r.reservedBytes != 0) "scheduler reservation must be non-zero"
  validateAccountedBytes "scheduler reservation" r.reservedBytes

/-- The bytes charged and held back, by day and month. -/
structure BudgetLedger where
  instance_ : Text
  sequence : ℕ
  day : Text
  month : Text
  dailyLimitBytes : ℕ
  monthlyLimitBytes : ℕ
  dailyChargedBytes : ℕ
  monthlyChargedBytes : ℕ
  accountingBlocked : Bool
  reservation : Option BudgetReservation
  deriving DecidableEq

namespace BudgetLedger

variable (l : BudgetLedger)

/-- `validate`, the outstanding reservation. -/
def validateReservation : Except String Unit :=
  match l.reservation with
  | none => .ok ()
  | some reservation => do
    reservation.validate
    check (!(decide (l.day < reservation.day) || decide (l.month < reservation.month)))
      "scheduler reservation is dated in the future"

def validate : Except String Unit := do
  requireIdentifier "scheduler budget instance" l.instance_
  check (l.sequence != 0) "scheduler budget sequence must be non-zero"
  validatePeriod l.day l.month
  validateAccountedBytes "daily scheduler limit" l.dailyLimitBytes
  validateAccountedBytes "monthly scheduler limit" l.monthlyLimitBytes
  validateAccountedBytes "daily scheduler charge" l.dailyChargedBytes
  validateAccountedBytes "monthly scheduler charge" l.monthlyChargedBytes
  check (!(l.dailyLimitBytes == 0 || l.monthlyLimitBytes == 0))
    "scheduler traffic limits must be non-zero"
  l.validateReservation

def new (instance_ day month : Text) (dailyLimitBytes monthlyLimitBytes : ℕ) :
    Except String BudgetLedger := do
  let ledger : BudgetLedger :=
    { instance_, sequence := 1, day, month, dailyLimitBytes, monthlyLimitBytes,
      dailyChargedBytes := 0, monthlyChargedBytes := 0, accountingBlocked := false,
      reservation := none }
  ledger.validate
  return ledger

def availableBytes : Except String ℕ := do
  l.validate
  return if l.accountingBlocked || l.reservation.isSome then 0 else
    min (l.dailyLimitBytes - l.dailyChargedBytes) (l.monthlyLimitBytes - l.monthlyChargedBytes)

/-- `bump_sequence`, then `validate`: how every change of a clone ends. -/
def sealed : Except String BudgetLedger := do
  let sequence ← checkedAdd l.sequence 1 "scheduler budget sequence overflow"
  let next := { l with sequence }
  next.validate
  return next

/-- `roll_period`, the clone with the new month and day. -/
def period (day month : Text) : BudgetLedger :=
  { l with
    month
    monthlyChargedBytes := if month = l.month then l.monthlyChargedBytes else 0
    day
    dailyChargedBytes := if day = l.day then l.dailyChargedBytes else 0 }

/-- `roll_period`, as the ledger it commits. -/
def rolled (day month : Text) : Except String BudgetLedger := do
  validatePeriod day month
  check (!(decide (day < l.day) || decide (month < l.month)))
    "scheduler budget calendar moved backwards"
  if day = l.day ∧ month = l.month then return l
  else (l.period day month).sealed

def exactReservation (reservationId jobId : Text) : Except String BudgetReservation :=
  match l.reservation with
  | none => .error "scheduler budget has no active reservation"
  | some reservation =>
    if reservation.reservationId ≠ reservationId ∨ reservation.jobId ≠ jobId then
      .error "scheduler budget reservation identity mismatch"
    else .ok reservation

/-- `reconfigure_limits`, from the rolled clone on. -/
def withLimits (dailyLimitBytes monthlyLimitBytes : ℕ) : Except String BudgetLedger :=
  if l.dailyLimitBytes = dailyLimitBytes ∧ l.monthlyLimitBytes = monthlyLimitBytes then .ok l
  else sealed { l with dailyLimitBytes, monthlyLimitBytes }

/-- `reconfigure_limits`, as the ledger it commits. -/
def reconfigured (day month : Text) (dailyLimitBytes monthlyLimitBytes : ℕ) :
    Except String BudgetLedger := do
  validateAccountedBytes "daily scheduler limit" dailyLimitBytes
  validateAccountedBytes "monthly scheduler limit" monthlyLimitBytes
  check (!(dailyLimitBytes == 0 || monthlyLimitBytes == 0))
    "scheduler traffic limits must be non-zero"
  check (!(l.reservation.isSome && (l.dailyLimitBytes != dailyLimitBytes
    || l.monthlyLimitBytes != monthlyLimitBytes)))
    "scheduler traffic limits changed during an active reservation"
  let next ← l.rolled day month
  next.withLimits dailyLimitBytes monthlyLimitBytes

/-- `reserve`, from the rolled clone on. -/
def withReservation (reservation : BudgetReservation) : Except String BudgetLedger := do
  check (!(l.accountingBlocked || l.reservation.isSome))
    "scheduler traffic accounting is not available for reservation"
  reservation.validate
  let available ← l.availableBytes
  check (!decide (reservation.reservedBytes > available))
    "scheduler traffic reservation exceeds the remaining budget"
  let dailyChargedBytes ← checkedBytesAdd l.dailyChargedBytes reservation.reservedBytes
    "daily scheduler reservation"
  let monthlyChargedBytes ← checkedBytesAdd l.monthlyChargedBytes reservation.reservedBytes
    "monthly scheduler reservation"
  sealed { l with dailyChargedBytes, monthlyChargedBytes, reservation := some reservation }

/-- `reserve`, as the ledger it commits. -/
def reserved (reservationId jobId day month : Text) (authority : FailedAttemptFence)
    (reservedBytes : ℕ) : Except String BudgetLedger := do
  let next ← l.rolled day month
  next.withReservation { reservationId, jobId, day, month, reservedBytes, authority }

/-- `settle`, one charge: replaced in the period of the reservation, added in a later one. -/
def settledCharge (samePeriod : Bool) (charged reserved consumed : ℕ)
    (name crossName : String) : Except String ℕ :=
  if samePeriod then replaceReservationCharge charged reserved consumed name
  else checkedBytesAdd charged consumed crossName

/-- `settle`, from the rolled clone on. -/
def withoutSettled (reservation : BudgetReservation) (day month : Text) (consumedBytes : ℕ) :
    Except String BudgetLedger := do
  let dailyChargedBytes ← settledCharge (reservation.day == day) l.dailyChargedBytes
    reservation.reservedBytes consumedBytes "daily scheduler settlement"
    "cross-day scheduler settlement"
  let monthlyChargedBytes ← settledCharge (reservation.month == month) l.monthlyChargedBytes
    reservation.reservedBytes consumedBytes "monthly scheduler settlement"
    "cross-month scheduler settlement"
  sealed { l with
    dailyChargedBytes, monthlyChargedBytes, reservation := none, accountingBlocked := false }

/-- `settle`, as the ledger it commits. -/
def settled (reservationId jobId day month : Text) (consumedBytes : ℕ) :
    Except String BudgetLedger := do
  validateAccountedBytes "scheduler consumed traffic" consumedBytes
  let reservation ← l.exactReservation reservationId jobId
  let next ← l.rolled day month
  next.withoutSettled reservation day month consumedBytes

/-- `mark_accounting_unknown`, as the ledger it commits. -/
def marked (reservationId jobId : Text) : Except String BudgetLedger := do
  let _ ← l.exactReservation reservationId jobId
  sealed { l with accountingBlocked := true }

/-- `acknowledge_accounting_unknown`, the bytes whose charge stands. -/
def blockedBytes : Except String ℕ :=
  match l.reservation with
  | none => .error "blocked scheduler accounting has no reservation"
  | some reservation => .ok reservation.reservedBytes

/-- `acknowledge_accounting_unknown`, as the bytes it returns and the ledger it commits. -/
def acknowledged : Except String (ℕ × BudgetLedger) := do
  check l.accountingBlocked "scheduler traffic accounting is not blocked"
  let charged ← l.blockedBytes
  let next ← sealed { l with reservation := none, accountingBlocked := false }
  return (charged, next)

/-- `*self = next` at the end of a call that worked on a clone. -/
def commit (next : Except String BudgetLedger) : BudgetLedger × Except String Unit :=
  match next with
  | .ok next => (next, .ok ())
  | .error e => (l, .error e)

def rollPeriod (day month : Text) : BudgetLedger × Except String Unit :=
  l.commit (l.rolled day month)

def reconfigureLimits (day month : Text) (dailyLimitBytes monthlyLimitBytes : ℕ) :
    BudgetLedger × Except String Unit :=
  l.commit (l.reconfigured day month dailyLimitBytes monthlyLimitBytes)

def reserve (reservationId jobId day month : Text) (authority : FailedAttemptFence)
    (reservedBytes : ℕ) : BudgetLedger × Except String Unit :=
  l.commit (l.reserved reservationId jobId day month authority reservedBytes)

def settle (reservationId jobId day month : Text) (consumedBytes : ℕ) :
    BudgetLedger × Except String Unit :=
  l.commit (l.settled reservationId jobId day month consumedBytes)

def markAccountingUnknown (reservationId jobId : Text) : BudgetLedger × Except String Unit :=
  l.commit (l.marked reservationId jobId)

def acknowledgeAccountingUnknown : BudgetLedger × Except String ℕ :=
  match l.acknowledged with
  | .ok (charged, next) => (next, .ok charged)
  | .error e => (l, .error e)

end BudgetLedger

/-- The two periods that are accounted. -/
inductive Period where
  | day
  | month

def Period.pick (p : Period) (day month : Text) : Text :=
  match p with
  | .day => day
  | .month => month

def BudgetReservation.label (r : BudgetReservation) (p : Period) : Text := p.pick r.day r.month

namespace BudgetLedger

def label (l : BudgetLedger) (p : Period) : Text := p.pick l.day l.month

def charged (l : BudgetLedger) : Period → ℕ
  | .day => l.dailyChargedBytes
  | .month => l.monthlyChargedBytes

def limit (l : BudgetLedger) : Period → ℕ
  | .day => l.dailyLimitBytes
  | .month => l.monthlyLimitBytes

variable {l next : BudgetLedger}

theorem checkedBytesAdd_eq_ok {lhs rhs n : ℕ} {name : String}
    (h : checkedBytesAdd lhs rhs name = .ok n) : n = lhs + rhs := by
  simp only [checkedBytesAdd, bind_ok, exists_unit, checkedAdd_eq_ok] at h
  obtain ⟨_, ⟨-, rfl⟩, -, h⟩ := h
  exact (Except.ok.inj h).symm

/-- **What sealing does**: the next sequence, and the ledger is valid. -/
theorem sealed_eq_ok (h : l.sealed = .ok next) :
    next = { l with sequence := l.sequence + 1 } ∧ next.validate = .ok () := by
  simp only [sealed, bind_ok, exists_unit, checkedAdd_eq_ok] at h
  obtain ⟨_, ⟨-, rfl⟩, hvalid, h⟩ := h
  cases h
  exact ⟨rfl, hvalid⟩

/-- **What rolling does**: the labels move forward, and a charge whose label moved is zero. -/
structure Rolls (l : BudgetLedger) (day month : Text) (next : BudgetLedger) : Prop where
  label : ∀ p, next.label p = Period.pick p day month
  forward : ∀ p, l.label p ≤ next.label p
  charged : ∀ p, next.charged p = if next.label p = l.label p then l.charged p else 0
  limit : ∀ p, next.limit p = l.limit p
  blocked : next.accountingBlocked = l.accountingBlocked
  reservation : next.reservation = l.reservation

theorem rolls_of_rolled {day month : Text} (h : l.rolled day month = .ok next) :
    l.Rolls day month next := by
  simp only [rolled, bind_ok, exists_unit, check_ok, not_eq_true',
    or_eq_false_iff, decide_eq_false_iff_not, not_lt] at h
  obtain ⟨-, ⟨hday, hmonth⟩, h⟩ := h
  split at h
  · rename_i hsame
    obtain ⟨rfl, rfl⟩ := hsame
    cases h
    exact ⟨fun p => rfl, fun p => le_refl _, fun p => by rw [if_pos rfl], fun p => rfl, rfl, rfl⟩
  · obtain ⟨rfl, -⟩ := sealed_eq_ok h
    refine ⟨fun p => rfl, fun p => ?_, fun p => ?_, fun p => ?_, rfl, rfl⟩ <;> cases p
    · exact hday
    · exact hmonth
    all_goals rfl

theorem withLimits_eq_ok {daily monthly : ℕ} (h : l.withLimits daily monthly = .ok next) :
    (∀ p, next.label p = l.label p ∧ next.charged p = l.charged p) ∧
      next.dailyLimitBytes = daily ∧ next.monthlyLimitBytes = monthly ∧
      next.accountingBlocked = l.accountingBlocked ∧ next.reservation = l.reservation := by
  unfold withLimits at h
  split at h
  · rename_i hsame
    cases h
    exact ⟨fun p => ⟨rfl, rfl⟩, hsame.1, hsame.2, rfl, rfl⟩
  · obtain ⟨rfl, -⟩ := sealed_eq_ok h
    refine ⟨fun p => ?_, rfl, rfl, rfl, rfl⟩
    cases p <;> exact ⟨rfl, rfl⟩

variable {r : BudgetReservation}

theorem withReservation_eq_ok (h : l.withReservation r = .ok next) :
    l.accountingBlocked = false ∧ l.reservation = none ∧ next.accountingBlocked = false ∧
      next.reservation = some r ∧
      ∀ p, next.label p = l.label p ∧ next.limit p = l.limit p ∧
        next.charged p = l.charged p + r.reservedBytes ∧
        r.reservedBytes ≤ l.limit p - l.charged p := by
  simp only [withReservation, bind_ok, exists_unit, check_ok, not_eq_true',
    or_eq_false_iff, decide_eq_false_iff_not, not_lt, isSome_eq_false_iff,
    isNone_iff_eq_none] at h
  obtain ⟨⟨hblocked, hnone⟩, -, available, havailable, hle, daily, hdaily, monthly, hmonthly, h⟩ := h
  simp only [availableBytes, bind_ok, exists_unit, hblocked, hnone] at havailable
  obtain ⟨-, havailable⟩ := havailable
  cases havailable
  obtain rfl := checkedBytesAdd_eq_ok hdaily
  obtain rfl := checkedBytesAdd_eq_ok hmonthly
  obtain ⟨rfl, -⟩ := sealed_eq_ok h
  have hle' : r.reservedBytes ≤ min (l.dailyLimitBytes - l.dailyChargedBytes)
      (l.monthlyLimitBytes - l.monthlyChargedBytes) := hle
  refine ⟨hblocked, hnone, hblocked, rfl, fun p => ?_⟩
  cases p with
  | day => exact ⟨rfl, rfl, rfl, hle'.trans (min_le_left _ _)⟩
  | month => exact ⟨rfl, rfl, rfl, hle'.trans (min_le_right _ _)⟩

theorem settledCharge_eq_ok {same : Bool} {charged reserved consumed n : ℕ}
    {name crossName : String}
    (h : settledCharge same charged reserved consumed name crossName = .ok n) :
    (same = true → reserved ≤ charged ∧ n = charged - reserved + consumed) ∧
      (same = false → n = charged + consumed) := by
  cases same with
  | true =>
    refine ⟨fun _ => ?_, nofun⟩
    simp only [settledCharge, if_true, replaceReservationCharge, bind_ok] at h
    obtain ⟨without, hwithout, h⟩ := h
    unfold withoutReservation at hwithout
    split at hwithout
    · rename_i hle
      cases hwithout
      exact ⟨hle, checkedBytesAdd_eq_ok h⟩
    · cases hwithout
  | false => exact ⟨nofun, fun _ => checkedBytesAdd_eq_ok h⟩

theorem withoutSettled_eq_ok {day month : Text} {consumed : ℕ}
    (h : l.withoutSettled r day month consumed = .ok next) :
    next.accountingBlocked = false ∧ next.reservation = none ∧
      ∀ p : Period, next.label p = l.label p ∧ next.limit p = l.limit p ∧
        (r.label p = p.pick day month → r.reservedBytes ≤ l.charged p ∧
          next.charged p = l.charged p - r.reservedBytes + consumed) ∧
        (r.label p ≠ p.pick day month → next.charged p = l.charged p + consumed) := by
  simp only [withoutSettled, bind_ok] at h
  obtain ⟨daily, hdaily, monthly, hmonthly, h⟩ := h
  obtain ⟨rfl, -⟩ := sealed_eq_ok h
  refine ⟨rfl, rfl, fun p => ?_⟩
  cases p with
  | day =>
    obtain ⟨hsame, hcross⟩ := settledCharge_eq_ok hdaily
    exact ⟨rfl, rfl, fun heq => hsame (beq_iff_eq.2 heq),
      fun hne => hcross (beq_eq_false_iff_ne.2 hne)⟩
  | month =>
    obtain ⟨hsame, hcross⟩ := settledCharge_eq_ok hmonthly
    exact ⟨rfl, rfl, fun heq => hsame (beq_iff_eq.2 heq),
      fun hne => hcross (beq_eq_false_iff_ne.2 hne)⟩

theorem exactReservation_eq_ok {reservationId jobId : Text}
    (h : l.exactReservation reservationId jobId = .ok r) : l.reservation = some r := by
  unfold exactReservation at h
  split at h
  · cases h
  · split at h
    · cases h
    · rename_i hsome _
      cases h
      exact hsome

end BudgetLedger

/-- A call on the ledger. -/
inductive LedgerCall where
  | reserve (reservationId jobId day month : Text) (authority : FailedAttemptFence)
      (reservedBytes : ℕ)
  | settle (reservationId jobId day month : Text) (consumedBytes : ℕ)
  | markAccountingUnknown (reservationId jobId : Text)
  | acknowledgeAccountingUnknown
  | rollPeriod (day month : Text)
  | reconfigureLimits (day month : Text) (dailyLimitBytes monthlyLimitBytes : ℕ)

def BudgetLedger.call (l : BudgetLedger) : LedgerCall → BudgetLedger × Except String Unit
  | .reserve reservationId jobId day month authority reservedBytes =>
    l.reserve reservationId jobId day month authority reservedBytes
  | .settle reservationId jobId day month consumedBytes =>
    l.settle reservationId jobId day month consumedBytes
  | .markAccountingUnknown reservationId jobId => l.markAccountingUnknown reservationId jobId
  | .acknowledgeAccountingUnknown =>
    (l.acknowledgeAccountingUnknown.1, l.acknowledgeAccountingUnknown.2.map fun _ => ())
  | .rollPeriod day month => l.rollPeriod day month
  | .reconfigureLimits day month daily monthly => l.reconfigureLimits day month daily monthly

/-- What a settlement reported. -/
structure Settlement where
  day : Text
  month : Text
  consumedBytes : ℕ

/-- A reservation that is no longer outstanding: settled, or acknowledged. -/
structure Closed where
  reservation : BudgetReservation
  settlement : Option Settlement

namespace Closed

def label (c : Closed) (p : Period) : Text :=
  match c.settlement with
  | some s => p.pick s.day s.month
  | none => c.reservation.label p

def bytes (c : Closed) : ℕ :=
  match c.settlement with
  | some s => s.consumedBytes
  | none => c.reservation.reservedBytes

def share (c : Closed) (p : Period) (label : Text) : ℕ := if c.label p = label then c.bytes else 0

end Closed

/-- A ledger with its history: the reservations closed so far, and whether a limit was
ever lowered. -/
structure Books where
  ledger : BudgetLedger
  closed : List Closed
  lowered : Bool

namespace Books

def record (b : Books) : LedgerCall → List Closed × Bool
  | .settle _ _ day month consumedBytes =>
    (b.ledger.reservation.toList.map (⟨·, some ⟨day, month, consumedBytes⟩⟩), false)
  | .acknowledgeAccountingUnknown => (b.ledger.reservation.toList.map (⟨·, none⟩), false)
  | .reconfigureLimits _ _ daily monthly =>
    ([], decide (daily < b.ledger.dailyLimitBytes) || decide (monthly < b.ledger.monthlyLimitBytes))
  | _ => ([], false)

def step (b : Books) (call : LedgerCall) : Books :=
  match b.ledger.call call with
  | (next, .ok ()) => ⟨next, (b.record call).1 ++ b.closed, b.lowered || (b.record call).2⟩
  | (next, .error _) => { b with ledger := next }

def run (b : Books) (calls : List LedgerCall) : Books := calls.foldl step b

def outstanding (b : Books) (p : Period) : ℕ :=
  match b.ledger.reservation with
  | some r => if r.label p = b.ledger.label p then r.reservedBytes else 0
  | none => 0

def spent (b : Books) (p : Period) : ℕ :=
  (b.closed.map fun c => c.share p (b.ledger.label p)).sum

def WithinReservations (b : Books) : Prop :=
  ∀ c ∈ b.closed, c.bytes ≤ c.reservation.reservedBytes

/-- **The books are kept.** -/
structure Kept (b : Books) : Prop where
  balanced : ∀ p, b.ledger.charged p = b.spent p + b.outstanding p
  past : ∀ c ∈ b.closed, ∀ p, c.label p ≤ b.ledger.label p
  dated : ∀ r, b.ledger.reservation = some r → ∀ p, r.label p ≤ b.ledger.label p
  blocked : b.ledger.accountingBlocked = true → b.ledger.reservation.isSome = true
  late : ∀ r, b.ledger.reservation = some r → ∀ p, r.label p ≠ b.ledger.label p →
    b.ledger.charged p = 0
  limited : b.lowered = false → b.WithinReservations → ∀ p, b.ledger.charged p ≤ b.ledger.limit p ∧
    ∀ r, b.ledger.reservation = some r → r.reservedBytes ≤ b.ledger.limit p

theorem spent_eq_zero {b : Books} {p : Period}
    (h : ∀ c ∈ b.closed, c.label p < b.ledger.label p) : b.spent p = 0 := by
  unfold spent
  rw [sum_eq_zero]
  intro n hn
  obtain ⟨c, hc, rfl⟩ := mem_map.1 hn
  exact if_neg (h c hc).ne

namespace Kept

variable {b : Books} {next : BudgetLedger}

theorem roll (h : b.Kept) {day month : Text} (hroll : b.ledger.Rolls day month next) :
    Kept { b with ledger := next } := by
  have houtstanding : ∀ p, next.label p = b.ledger.label p →
      outstanding { b with ledger := next } p = b.outstanding p := by
    intro p hp
    simp [outstanding, hroll.reservation, hp]
  constructor
  · intro p
    rw [hroll.charged]
    split
    · rename_i hp
      rw [houtstanding p hp, h.balanced]
      simp [spent, hp]
    · rename_i hp
      have hlt : b.ledger.label p < next.label p := lt_of_le_of_ne (hroll.forward p) (Ne.symm hp)
      have hspent : spent { b with ledger := next } p = 0 :=
        spent_eq_zero fun c hc => lt_of_le_of_lt (h.past c hc p) hlt
      have hnone : outstanding { b with ledger := next } p = 0 := by
        simp only [outstanding, hroll.reservation]
        split
        · rename_i r hr
          exact if_neg (lt_of_le_of_lt (h.dated r hr p) hlt).ne
        · rfl
      rw [hspent, hnone]
  · exact fun c hc p => (h.past c hc p).trans (hroll.forward p)
  · intro r hr p
    exact (h.dated r (hroll.reservation.symm.trans hr) p).trans (hroll.forward p)
  · rw [hroll.blocked, hroll.reservation]
    exact h.blocked
  · intro r hr p hne
    rw [hroll.charged]
    split
    · rename_i hp
      exact h.late r (hroll.reservation.symm.trans hr) p (hp ▸ hne)
    · rfl
  · intro hlowered hwithin p
    obtain ⟨hcharged, hreserved⟩ := h.limited hlowered hwithin p
    rw [hroll.limit, hroll.charged, hroll.reservation]
    refine ⟨?_, hreserved⟩
    split
    · exact hcharged
    · exact Nat.zero_le _

theorem limits (h : b.Kept) {daily monthly : ℕ}
    (hnext : b.ledger.withLimits daily monthly = .ok next) :
    Kept ⟨next, b.closed, b.lowered || (decide (daily < b.ledger.dailyLimitBytes)
      || decide (monthly < b.ledger.monthlyLimitBytes))⟩ := by
  obtain ⟨hsame, hdaily, hmonthly, hblocked, hreservation⟩ := BudgetLedger.withLimits_eq_ok hnext
  constructor
  · intro p
    obtain ⟨hlabel, hcharged⟩ := hsame p
    simpa only [spent, outstanding, hlabel, hcharged, hreservation] using h.balanced p
  · intro c hc p
    rw [(hsame p).1]
    exact h.past c hc p
  · intro r hr p
    rw [(hsame p).1]
    exact h.dated r (hreservation.symm.trans hr) p
  · rw [hblocked, hreservation]
    exact h.blocked
  · intro r hr p hne
    rw [(hsame p).2]
    exact h.late r (hreservation.symm.trans hr) p ((hsame p).1 ▸ hne)
  · intro hlowered hwithin p
    simp only [or_eq_false_iff, decide_eq_false_iff_not, not_lt] at hlowered
    obtain ⟨hold, hday, hmonth⟩ := hlowered
    obtain ⟨hcharged, hreserved⟩ := h.limited hold hwithin p
    have hraised : b.ledger.limit p ≤ next.limit p := by
      cases p with
      | day => exact hday.trans hdaily.ge
      | month => exact hmonth.trans hmonthly.ge
    rw [(hsame p).2, hreservation]
    exact ⟨hcharged.trans hraised, fun r hr => (hreserved r hr).trans hraised⟩

variable {r : BudgetReservation}

section

variable (h : b.Kept)
include h

theorem reserve (hr : ∀ p, r.label p = b.ledger.label p)
    (hnext : b.ledger.withReservation r = .ok next) : Kept { b with ledger := next } := by
  obtain ⟨-, hnone, hblocked, hsome, hsame⟩ := BudgetLedger.withReservation_eq_ok hnext
  have hunique : ∀ r', next.reservation = some r' → r' = r := fun r' hr' =>
    some.inj (hr'.symm.trans hsome)
  constructor
  · intro p
    obtain ⟨hlabel, -, hcharged, -⟩ := hsame p
    have hbalanced := h.balanced p
    simp only [outstanding, hnone, Nat.add_zero] at hbalanced
    simp [spent, outstanding, hsome, hlabel, hr p, hcharged, hbalanced]
  · intro c hc p
    rw [(hsame p).1]
    exact h.past c hc p
  · intro r' hr' p
    obtain rfl := hunique r' hr'
    rw [(hsame p).1, hr p]
  · intro hb
    exact absurd (hblocked.symm.trans hb) (by simp)
  · intro r' hr' p hne
    obtain rfl := hunique r' hr'
    exact absurd ((hr p).trans (hsame p).1.symm) hne
  · intro hlowered hwithin p
    obtain ⟨hcharged, -⟩ := h.limited hlowered hwithin p
    obtain ⟨-, hlimit, hnow, hfits⟩ := hsame p
    rw [hlimit, hnow]
    refine ⟨by omega, fun r' hr' => ?_⟩
    obtain rfl := hunique r' hr'
    omega

theorem reserved_le (hr : b.ledger.reservation = some r) {p : Period}
    (hp : r.label p = b.ledger.label p) : r.reservedBytes ≤ b.ledger.charged p := by
  have hbalanced := h.balanced p
  simp only [outstanding, hr, hp, if_true] at hbalanced
  omega

theorem settle {day month : Text} {consumed : ℕ} (hr : b.ledger.reservation = some r)
    (hp : ∀ p, b.ledger.label p = Period.pick p day month)
    (hnext : b.ledger.withoutSettled r day month consumed = .ok next) :
    Kept ⟨next, ⟨r, some ⟨day, month, consumed⟩⟩ :: b.closed, b.lowered⟩ := by
  obtain ⟨hblocked, hnone, hsame⟩ := BudgetLedger.withoutSettled_eq_ok hnext
  constructor
  · intro p
    obtain ⟨hlabel, -, hreplaced, hadded⟩ := hsame p
    have hbalanced := h.balanced p
    have hspent : spent ⟨next, ⟨r, some ⟨day, month, consumed⟩⟩ :: b.closed, b.lowered⟩ p
        = consumed + b.spent p := by
      have hshare : Closed.share ⟨r, some ⟨day, month, consumed⟩⟩ p (b.ledger.label p) = consumed :=
        if_pos (hp p).symm
      simp [spent, hlabel, hshare]
    simp only [outstanding, hr, hnone] at hbalanced ⊢
    by_cases heq : r.label p = b.ledger.label p
    · rw [(hreplaced (heq.trans (hp p))).2]
      rw [if_pos heq] at hbalanced
      omega
    · rw [hadded fun hpick => heq (hpick.trans (hp p).symm)]
      rw [if_neg heq] at hbalanced
      omega
  · intro c hc p
    rw [(hsame p).1]
    rcases mem_cons.1 hc with rfl | hc
    · exact (hp p).ge
    · exact h.past c hc p
  · intro r' hr'
    exact absurd (hnone.symm.trans hr') (by simp)
  · intro hb
    exact absurd (hblocked.symm.trans hb) (by simp)
  · intro r' hr'
    exact absurd (hnone.symm.trans hr') (by simp)
  · intro hlowered hwithin p
    obtain ⟨hcharged, hreserved⟩ :=
      h.limited hlowered (fun c hc => hwithin c (mem_cons_of_mem _ hc)) p
    have hconsumed : consumed ≤ r.reservedBytes := hwithin _ mem_cons_self
    obtain ⟨-, hlimit, hreplaced, hadded⟩ := hsame p
    show next.charged p ≤ next.limit p ∧ ∀ r, next.reservation = some r → _ ≤ next.limit p
    refine ⟨?_, fun r' hr' => absurd (hnone.symm.trans hr') (by simp)⟩
    by_cases heq : r.label p = b.ledger.label p
    · obtain ⟨hle, hnow⟩ := hreplaced (heq.trans (hp p))
      omega
    · rw [hadded fun hpick => heq (hpick.trans (hp p).symm), h.late r hr p heq]
      have := hreserved r hr
      omega

theorem mark {reservationId jobId : Text} (hnext : b.ledger.marked reservationId jobId = .ok next) :
    Kept { b with ledger := next } := by
  simp only [BudgetLedger.marked, bind_ok] at hnext
  obtain ⟨r, hr, hnext⟩ := hnext
  obtain ⟨rfl, -⟩ := BudgetLedger.sealed_eq_ok hnext
  refine ⟨fun p => ?_, h.past, h.dated, fun _ => ?_, fun r hr p hne => ?_, fun hlowered hwithin p => ?_⟩
  · have hbalanced := h.balanced p
    cases p <;> exact hbalanced
  · rw [BudgetLedger.exactReservation_eq_ok hr]
    rfl
  · have hlate := h.late r hr p hne
    cases p <;> exact hlate
  · have hlimited := h.limited hlowered hwithin p
    cases p <;> exact hlimited

theorem acknowledge {charged : ℕ} (hnext : b.ledger.acknowledged = .ok (charged, next)) :
    Kept ⟨next, b.ledger.reservation.toList.map (⟨·, none⟩) ++ b.closed, b.lowered⟩ := by
  simp only [BudgetLedger.acknowledged, bind_ok, exists_unit, check_ok] at hnext
  obtain ⟨hblocked, _, -, sealed, hsealed, hnext⟩ := hnext
  obtain ⟨-, rfl⟩ := Prod.mk.inj (Except.ok.inj hnext)
  obtain ⟨rfl, -⟩ := BudgetLedger.sealed_eq_ok hsealed
  obtain ⟨r, hr⟩ := isSome_iff_exists.1 (h.blocked hblocked)
  simp only [hr, toList_some, map_cons, map_nil, singleton_append]
  constructor
  · intro p
    have hbalanced := h.balanced p
    simp only [outstanding, hr] at hbalanced
    have hshare : Closed.share ⟨r, none⟩ p (b.ledger.label p)
        = if r.label p = b.ledger.label p then r.reservedBytes else 0 := rfl
    cases p <;> exact hbalanced.trans (Nat.add_comm _ _)
  · intro c hc p
    rcases mem_cons.1 hc with rfl | hc
    · cases p <;> exact h.dated r hr _
    · cases p <;> exact h.past c hc _
  · exact nofun
  · exact nofun
  · exact nofun
  · intro hlowered hwithin p
    obtain ⟨hcharged, -⟩ :=
      h.limited hlowered (fun c hc => hwithin c (mem_cons_of_mem _ hc)) p
    refine ⟨?_, nofun⟩
    cases p <;> exact hcharged

/-- **One call keeps the books.** -/
theorem step (call : LedgerCall) : (b.step call).Kept := by
  unfold Books.step
  cases call with
  | reserve reservationId jobId day month authority reservedBytes =>
    simp only [BudgetLedger.call, BudgetLedger.reserve, BudgetLedger.commit]
    cases hnext : b.ledger.reserved reservationId jobId day month authority reservedBytes with
    | error e => exact h
    | ok next =>
      simp only [BudgetLedger.reserved, bind_ok] at hnext
      obtain ⟨rolled, hrolled, hnext⟩ := hnext
      have hroll := BudgetLedger.rolls_of_rolled hrolled
      have hdated : ∀ p, BudgetReservation.label
          ⟨reservationId, jobId, day, month, reservedBytes, authority⟩ p = rolled.label p :=
        fun p => (hroll.label p).symm
      have hkept := (h.roll hroll).reserve hdated hnext
      simpa [record] using hkept
  | settle reservationId jobId day month consumedBytes =>
    simp only [BudgetLedger.call, BudgetLedger.settle, BudgetLedger.commit]
    cases hnext : b.ledger.settled reservationId jobId day month consumedBytes with
    | error e => exact h
    | ok next =>
      simp only [BudgetLedger.settled, bind_ok, exists_unit] at hnext
      obtain ⟨-, r, hexact, rolled, hrolled, hnext⟩ := hnext
      have hr := BudgetLedger.exactReservation_eq_ok hexact
      have hroll := BudgetLedger.rolls_of_rolled hrolled
      have hkept := (h.roll hroll).settle (hroll.reservation.trans hr) hroll.label hnext
      simpa [record, hr] using hkept
  | markAccountingUnknown reservationId jobId =>
    simp only [BudgetLedger.call, BudgetLedger.markAccountingUnknown, BudgetLedger.commit]
    cases hnext : b.ledger.marked reservationId jobId with
    | error e => exact h
    | ok next => simpa [record] using h.mark hnext
  | acknowledgeAccountingUnknown =>
    simp only [BudgetLedger.call, BudgetLedger.acknowledgeAccountingUnknown]
    cases hnext : b.ledger.acknowledged with
    | error e => exact h
    | ok result => simpa [record, Except.map] using h.acknowledge hnext
  | rollPeriod day month =>
    simp only [BudgetLedger.call, BudgetLedger.rollPeriod, BudgetLedger.commit]
    cases hnext : b.ledger.rolled day month with
    | error e => exact h
    | ok next => simpa [record] using h.roll (BudgetLedger.rolls_of_rolled hnext)
  | reconfigureLimits day month daily monthly =>
    simp only [BudgetLedger.call, BudgetLedger.reconfigureLimits, BudgetLedger.commit]
    cases hnext : b.ledger.reconfigured day month daily monthly with
    | error e => exact h
    | ok next =>
      simp only [BudgetLedger.reconfigured, bind_ok, exists_unit] at hnext
      obtain ⟨-, -, -, -, rolled, hrolled, hnext⟩ := hnext
      have hroll := BudgetLedger.rolls_of_rolled hrolled
      have hdaily : rolled.dailyLimitBytes = b.ledger.dailyLimitBytes := hroll.limit .day
      have hmonthly : rolled.monthlyLimitBytes = b.ledger.monthlyLimitBytes := hroll.limit .month
      have hkept := (h.roll hroll).limits hnext
      rw [hdaily, hmonthly] at hkept
      exact hkept

theorem run (calls : List LedgerCall) : (b.run calls).Kept := by
  induction calls generalizing b with
  | nil => exact h
  | cons call calls ih => exact ih (h.step call)

end

end Kept

theorem kept_new {instance_ day month : Text} {daily monthly : ℕ} {l : BudgetLedger}
    (h : BudgetLedger.new instance_ day month daily monthly = .ok l) : Kept ⟨l, [], false⟩ := by
  simp only [BudgetLedger.new, bind_ok, exists_unit] at h
  obtain ⟨-, h⟩ := h
  cases h
  refine ⟨fun p => ?_, nofun, nofun, nofun, nofun, fun _ _ p => ⟨?_, nofun⟩⟩
  · cases p <;> rfl
  · cases p <;> exact Nat.zero_le _

end Books

def MissingCharge (e : String) : Prop :=
  e = "daily scheduler settlement is missing its reservation charge" ∨
    e = "monthly scheduler settlement is missing its reservation charge"

instance (e : String) : Decidable (MissingCharge e) := inferInstanceAs (Decidable (_ ∨ _))

def Clean {α : Type} (x : Except String α) : Prop := ∀ e, x = .error e → ¬MissingCharge e

namespace Clean

variable {α β : Type}

theorem ok (a : α) : Clean (.ok a) := nofun

variable {e : String}

theorem error (h : ¬MissingCharge e) : Clean (.error e : Except String α) := by
  intro e' he
  cases he
  exact h

theorem bind {x : Except String α} {k : α → Except String β} (hx : Clean x)
    (hk : ∀ a, x = .ok a → Clean (k a)) : Clean (x >>= k) := by
  cases x with
  | error e => exact error (hx e rfl)
  | ok a => exact hk a rfl

theorem check {ok : Bool} (h : ¬MissingCharge e) : Clean (check ok e) := by
  cases ok with
  | true => exact .ok ()
  | false => exact error h

theorem checkedAdd {a b : ℕ} (h : ¬MissingCharge e) : Clean (checkedAdd a b e) := by
  unfold CakeAutorate.checkedAdd
  split
  · exact ok _
  · exact error h

theorem checkedBytesAdd {a b : ℕ} {name : String} (hoverflow : ¬MissingCharge (name ++ " overflow"))
    (hrange : ¬MissingCharge (name ++ " exceeds the exact accounting range")) :
    Clean (checkedBytesAdd a b name) :=
  bind (checkedAdd hoverflow) fun _ _ => bind (check hrange) fun _ _ => ok _

theorem validatePeriod (day month : Text) : Clean (validatePeriod day month) :=
  bind (check (by decide)) fun _ _ => bind (check (by decide)) fun _ _ => check (by decide)

theorem generations (g : SchedulerGenerations) : Clean g.validate :=
  bind (check (by decide)) fun _ _ => bind (check (by decide)) fun _ _ =>
    bind (check (by decide)) fun _ _ => check (by decide)

theorem reservation (r : BudgetReservation) : Clean r.validate :=
  bind (check (by decide)) fun _ _ => bind (check (by decide)) fun _ _ =>
    bind (validatePeriod _ _) fun _ _ =>
      bind (bind (check (by decide)) fun _ _ => generations _) fun _ _ =>
        bind (check (by decide)) fun _ _ => check (by decide)

variable (l : BudgetLedger)

theorem validateReservation : Clean l.validateReservation := by
  unfold BudgetLedger.validateReservation
  split
  · exact ok ()
  · exact bind (reservation _) fun _ _ => check (by decide)

theorem validate : Clean l.validate :=
  bind (check (by decide)) fun _ _ => bind (check (by decide)) fun _ _ =>
    bind (validatePeriod _ _) fun _ _ => bind (check (by decide)) fun _ _ =>
      bind (check (by decide)) fun _ _ => bind (check (by decide)) fun _ _ =>
        bind (check (by decide)) fun _ _ => bind (check (by decide)) fun _ _ =>
          validateReservation l

theorem sealed : Clean l.sealed :=
  bind (checkedAdd (by decide)) fun _ _ => bind (validate _) fun _ _ => ok _

theorem rolled (day month : Text) : Clean (l.rolled day month) := by
  refine bind (validatePeriod _ _) fun _ _ => bind (check (by decide)) fun _ _ => ?_
  split
  · exact ok _
  · exact sealed _

theorem exactReservation (reservationId jobId : Text) :
    Clean (l.exactReservation reservationId jobId) := by
  unfold BudgetLedger.exactReservation
  split
  · exact error (by decide)
  · split
    · exact error (by decide)
    · exact ok _

theorem settledCharge {same : Bool} {charged reserved consumed : ℕ} {name crossName : String}
    (hle : same = true → reserved ≤ charged) (hoverflow : ¬MissingCharge (name ++ " overflow"))
    (hrange : ¬MissingCharge (name ++ " exceeds the exact accounting range"))
    (hcrossOverflow : ¬MissingCharge (crossName ++ " overflow"))
    (hcrossRange : ¬MissingCharge (crossName ++ " exceeds the exact accounting range")) :
    Clean (BudgetLedger.settledCharge same charged reserved consumed name crossName) := by
  unfold BudgetLedger.settledCharge
  split
  · rename_i hsame
    refine bind ?_ fun _ _ => checkedBytesAdd hoverflow hrange
    rw [withoutReservation, if_pos (hle hsame)]
    exact ok _
  · exact checkedBytesAdd hcrossOverflow hcrossRange

end Clean

theorem Books.Kept.settled_clean {b : Books} (h : b.Kept) (reservationId jobId day month : Text)
    (consumed : ℕ) : Clean (b.ledger.settled reservationId jobId day month consumed) := by
  refine Clean.bind (Clean.check (by decide)) fun _ _ =>
    Clean.bind (Clean.exactReservation _ _ _) fun r hexact =>
      Clean.bind (Clean.rolled _ _ _) fun next hrolled => ?_
  have hr := BudgetLedger.exactReservation_eq_ok hexact
  have hroll := BudgetLedger.rolls_of_rolled hrolled
  have hle : ∀ p : Period, r.label p = p.pick day month → r.reservedBytes ≤ next.charged p := by
    intro p hp
    have hlabel : r.label p = next.label p := hp.trans (hroll.label p).symm
    exact (h.roll hroll).reserved_le (hroll.reservation.trans hr) hlabel
  refine Clean.bind (Clean.settledCharge (fun heq => hle .day (beq_iff_eq.1 heq)) (by decide)
    (by decide) (by decide) (by decide)) fun _ _ => ?_
  refine Clean.bind (Clean.settledCharge (fun heq => hle .month (beq_iff_eq.1 heq)) (by decide)
    (by decide) (by decide) (by decide)) fun _ _ => ?_
  exact Clean.sealed _

namespace Books

theorem call_error {l : BudgetLedger} {call : LedgerCall} {e : String}
    (h : (l.call call).2 = .error e) : (l.call call).1 = l := by
  have hcommit : ∀ next, (l.commit next).2 = .error e → (l.commit next).1 = l := by
    intro next hnext
    cases next with
    | error e => rfl
    | ok next => cases hnext
  cases call with
  | acknowledgeAccountingUnknown =>
    simp only [BudgetLedger.call, BudgetLedger.acknowledgeAccountingUnknown] at h ⊢
    cases hnext : l.acknowledged with
    | error e => rfl
    | ok result =>
      rw [hnext] at h
      cases h
  | _ => exact hcommit _ h

/-- **Scheduled traffic is accounted to the byte.**  After every sequence of calls on a new ledger:
each charge is what the closed reservations and the outstanding one count in its period, a
settlement of a live reservation finds it in its charge, the limits are kept but for overdrawn
settlements and lowered limits, and a call that fails changes nothing. -/
theorem traffic_accounted {instance_ day month : Text} {daily monthly : ℕ} {l : BudgetLedger}
    (h₀ : BudgetLedger.new instance_ day month daily monthly = .ok l) (calls : List LedgerCall) :
    let b := Books.run ⟨l, [], false⟩ calls
    (∀ p, b.ledger.charged p = b.spent p + b.outstanding p) ∧
    (b.ledger.accountingBlocked = true → b.ledger.reservation.isSome = true) ∧
    (∀ r, b.ledger.reservation = some r → ∀ p, r.label p = b.ledger.label p →
      r.reservedBytes ≤ b.ledger.charged p) ∧
    (∀ reservationId jobId day month consumed e,
      (b.ledger.settle reservationId jobId day month consumed).2 = .error e → ¬MissingCharge e) ∧
    (b.lowered = false → b.WithinReservations → ∀ p, b.ledger.charged p ≤ b.ledger.limit p) ∧
    (∀ call e, (b.ledger.call call).2 = .error e → (b.ledger.call call).1 = b.ledger) := by
  intro b
  have hkept : b.Kept := (kept_new h₀).run calls
  refine ⟨hkept.balanced, hkept.blocked, fun r hr p hp => hkept.reserved_le hr hp, ?_,
    fun hlowered hwithin p => (hkept.limited hlowered hwithin p).1, fun call e he => call_error he⟩
  intro reservationId jobId day month consumed e he
  refine hkept.settled_clean reservationId jobId day month consumed e ?_
  unfold BudgetLedger.settle BudgetLedger.commit at he
  split at he
  · cases he
  · rename_i e' hsettled
    cases he
    exact hsettled

def sampleCalls : List LedgerCall :=
  [.reserve (List.replicate 32 'a') (List.replicate 32 'b') (lit "20240229") (lit "202402")
      ⟨100, 60, ScheduleCursor.sampleGenerations 1, 0⟩ 70,
    .settle (List.replicate 32 'a') (List.replicate 32 'b') (lit "20240301") (lit "202403") 50]

def sampleLedger : BudgetLedger :=
  ⟨lit "wan", 1, lit "20240229", lit "202402", 100, 150, 0, 0, false, none⟩

theorem sampleCalls_accounted :
    BudgetLedger.new (lit "wan") (lit "20240229") (lit "202402") 100 150 = .ok sampleLedger ∧
      (Books.run ⟨sampleLedger, [], false⟩ sampleCalls).ledger.charged .month = 50 := by
  have hnew : BudgetLedger.new (lit "wan") (lit "20240229") (lit "202402") 100 150
      = .ok sampleLedger := by decide +kernel
  refine ⟨hnew, ((traffic_accounted hnew sampleCalls).1 .month).trans ?_⟩
  decide +kernel

end Books

end CakeAutorate.Scheduler

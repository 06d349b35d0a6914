/-
# Rules of the log's calls

What has to hold before a call, `attest_file` and `open_file`, so that their callers need not look
into them.  A file is attested when the path names it, and a file that is named can be opened;
both fail otherwise, or when a call is refused.
-/

import CakeAutorate.DaemonLog.LogFile

namespace CakeAutorate.DaemonLog

open Syscall Wire Op World

variable {refusals : Bool} {α β : Type} {Q : Except LogError α → World → Prop} {I : World → Prop}
  {s s' : World}

theorem wp_ret {r : Except LogError α} (hI : I s) (hQ : Q r s) :
    wp (machine refusals) Q I (.ret r) s :=
  wp_faulty_ret hI hQ

theorem wp_self {f : LogFile → Prog α} (hI : I s) (hk : wp (machine refusals) Q I (f s.log) s) :
    wp (machine refusals) Q I (call .self >>= f) s := by
  refine wp_faulty_call hI ?_ hk ?_
  · intro s' ht
    exact ht.elim
  · intro r s' hr
    exact hr.elim

theorem wp_set {f : LogFile → LogFile} {Q : Except LogError Unit → World → Prop} (hI : I s)
    (hI' : I { s with log := f s.log }) (hok : Q (.ok ()) { s with log := f s.log }) :
    wp (machine refusals) Q I (call (.set f)) s := by
  refine wp_faulty_call hI ?_ (wp_ret hI' hok) ?_
  · intro s' ht
    exact ht.elim
  · intro r s' hr
    exact hr.elim

theorem wp_clock {f : ℕ → Prog α} (hI : I s) (hk : ∀ t, wp (machine refusals) Q I (f t) s) :
    wp (machine refusals) Q I (call .now >>= f) s := by
  refine wp_faulty_call hI ?_ (hk 0) ?_
  · intro s' ht
    exact ht.elim
  · intro t s' hr
    obtain rfl : s' = s := hr
    exact hk t

def Op.Plain : Op → Prop
  | .write _ _ => False
  | _ => True

variable {op : Op}

theorem Op.Plain.refused (h : op.Plain) (hr : op.Refused s s') : s' = s := by
  cases op <;> first | exact hr | exact h.elim

theorem Op.Plain.torn (h : op.Plain) : ¬torn (.io op) s s' := by
  cases op <;> first | exact id | exact h.elim

theorem Op.exec_error {e : LogError} (h : (op.exec s).1 = .error e) : (op.exec s).2 = s := by
  cases op with
  | openFile name create =>
    cases hname : s.names name <;> cases create <;> simp only [exec, hname] at h ⊢
    cases h
  | createNew name =>
    cases hname : s.names name <;> simp only [exec, hname] at h ⊢
    cases h
  | rename source target =>
    cases hname : s.names source <;> simp only [exec, hname] at h ⊢
    cases h
  | remove name =>
    cases hname : s.names name <;> simp only [exec, hname] at h ⊢
    cases h
  | write file bytes => cases h
  | _ => rfl

theorem wp_io {k : Except LogError op.Answer → Prog α} (hop : op.Plain) (hI : I s)
    (hk : wp (machine refusals) Q I (k (op.exec s).1) (op.exec s).2)
    (hr : refusals = true → wp (machine refusals) Q I (k (.error .refused)) s) :
    wp (machine refusals) Q I (.call (.io op) k) s := by
  refine wp_faulty_call hI ?_ hk ?_
  · intro s' ht
    exact absurd ht hop.torn
  · rintro r s' ⟨hrefusals, rfl, hs⟩
    rw [hop.refused hs]
    exact hr hrefusals

def Refusal (refusals : Bool) (e : LogError) : Prop := refusals = true ∧ e = .refused

theorem wp_perform {Q : Except LogError op.Answer → World → Prop} (hop : op.Plain) (hI : I s)
    (hok : ∀ a, (op.exec s).1 = .ok a → I (op.exec s).2 ∧ Q (.ok a) (op.exec s).2)
    (herr : ∀ e, Refusal refusals e ∨ (op.exec s).1 = .error e → Q (.error e) s) :
    wp (machine refusals) Q I (perform op) s := by
  refine wp_io hop hI ?_ fun hrefusals => wp_ret hI (herr _ (.inl ⟨hrefusals, rfl⟩))
  cases hanswer : (op.exec s).1 with
  | ok a =>
    obtain ⟨hI', hQ⟩ := hok a hanswer
    exact wp_ret hI' hQ
  | error e =>
    rw [exec_error hanswer]
    exact wp_ret hI (herr e (.inr hanswer))

theorem wp_answers {Q : Except LogError op.Answer → World → Prop} {a : op.Answer} (hop : op.Plain)
    (hanswer : op.exec s = (.ok a, s')) (hI : I s) (hI' : I s') (hok : Q (.ok a) s')
    (herr : ∀ e, Refusal refusals e → Q (.error e) s) :
    wp (machine refusals) Q I (perform op) s := by
  refine wp_perform hop hI ?_ ?_
  · rw [hanswer]
    intro b hb
    obtain rfl : a = b := Except.ok.inj hb
    exact ⟨hI', hok⟩
  · intro e he
    rcases he with hrefusal | he
    · exact herr e hrefusal
    · rw [hanswer] at he
      cases he

theorem wp_write {file : ℕ} {bytes : Bytes} {Q : Except LogError Unit → World → Prop} (hI : I s)
    (ht : ∀ start, start <+: bytes → I (s.append file start))
    (hok : Q (.ok ()) (s.append file bytes))
    (herr : ∀ e start, Refusal refusals e → s.names .temporary = some file → start <+: bytes →
      Q (.error e) (s.append file start)) :
    wp (machine refusals) Q I (perform (.write file bytes)) s := by
  refine wp_faulty_call hI ?_ (wp_ret (ht bytes (List.prefix_refl _)) hok) ?_
  · rintro s' ⟨start, hstart, rfl⟩
    exact ht start hstart
  · rintro r s' ⟨hrefusals, rfl, hfile, start, hstart, rfl⟩
    exact wp_ret (ht start hstart) (herr _ start ⟨hrefusals, rfl⟩ hfile hstart)

theorem wp_require {ok : Bool} {message : String} {Q : Except LogError Unit → World → Prop}
    (hI : I s) (hok : ok = true → Q (.ok ()) s)
    (herr : ok = false → Q (.error (.invalid message)) s) :
    wp (machine refusals) Q I (require ok message) s := by
  cases ok with
  | true => exact wp_ret hI (hok rfl)
  | false => exact wp_ret hI (herr rfl)

theorem wp_onlyIf {condition : Prop} [Decidable condition] {p : Prog Unit}
    {Q : Except LogError Unit → World → Prop} (hI : I s)
    (hp : condition → wp (machine refusals) Q I p s) (hnot : ¬condition → Q (.ok ()) s) :
    wp (machine refusals) Q I (onlyIf condition p) s := by
  unfold onlyIf
  by_cases hcondition : condition
  · rw [if_pos hcondition]
    exact hp hcondition
  · rw [if_neg hcondition]
    exact wp_ret hI (hnot hcondition)

def World.bytesAt (s : World) (name : Name) : Bytes :=
  ((s.names name).map fun i => (s.inodes i).bytes).getD []

variable {name : Name} {i : ℕ}

theorem World.bytesAt_some (h : s.names name = some i) : s.bytesAt name = (s.inodes i).bytes := by
  rw [bytesAt, h]
  rfl

theorem World.bytesAt_none (h : s.names name = none) : s.bytesAt name = [] := by
  rw [bytesAt, h]
  rfl

/-- Two names are not the same file, and every file is older than the next one. -/
structure Named (s : World) : Prop where
  distinct : ∀ a b i, s.names a = some i → s.names b = some i → a = b
  old : ∀ a i, s.names a = some i → i < s.fresh

theorem Named.nlink (h : Named s) (hname : s.names name = some i) : s.nlink i = 1 := by
  have hother : ∀ n, n ≠ name → s.names n ≠ some i := fun n hn hi => hn (h.distinct n name i hi hname)
  unfold World.nlink
  cases name with
  | active =>
    have hprevious := hother .previous (by decide)
    have htemporary := hother .temporary (by decide)
    simp [hname, hprevious, htemporary]
  | previous =>
    have hactive := hother .active (by decide)
    have htemporary := hother .temporary (by decide)
    simp [hname, hactive, htemporary]
  | temporary =>
    have hactive := hother .active (by decide)
    have hprevious := hother .previous (by decide)
    simp [hname, hactive, hprevious]

theorem stat_some (h : s.names name = some i) : s.stat name = .ok (s.metadata i) := by
  rw [stat, h]

theorem stat_none (h : s.names name = none) : s.stat name = .error .notFound := by
  rw [stat, h]

theorem answer_some (h : s.names name = some i) :
    (Op.exec (.symlinkMetadata name) s).1 = .ok (s.metadata i) :=
  stat_some h

theorem answer_none (h : s.names name = none) :
    (Op.exec (.symlinkMetadata name) s).1 = .error .notFound :=
  stat_none h

/-- **`attest_file`** succeeds for the file that the path names. -/
theorem wp_attest {path : Name} {file : ℕ} {Q : Except LogError Metadata → World → Prop}
    (hn : Named s) (hI : I s) (hok : s.names path = some file → Q (.ok (s.metadata file)) s)
    (herr : ∀ e, Refusal refusals e ∨ s.names path ≠ some file → Q (.error e) s) :
    wp (machine refusals) Q I (attestFile path file) s := by
  refine wp_bind (wp_perform trivial hI ?_ ?_)
  · intro current hcurrent
    refine ⟨hI, wp_bind (wp_perform trivial hI ?_ ?_)⟩
    · intro opened hopened
      obtain rfl : s.metadata file = opened := Except.ok.inj hopened
      refine ⟨hI, wp_bind (wp_require hI ?_ ?_)⟩
      · intro hall
        simp only [Bool.and_eq_true] at hall
        have hsame : current.inode = file := eq_of_beq hall.2
        cases hpath : s.names path with
        | none =>
          rw [answer_none hpath] at hcurrent
          cases hcurrent
        | some i =>
          rw [answer_some hpath] at hcurrent
          obtain rfl : s.metadata i = current := Except.ok.inj hcurrent
          obtain rfl : i = file := hsame
          exact wp_ret hI (hok hpath)
      · intro hfalse
        refine herr _ (.inr fun hpath => ?_)
        rw [answer_some hpath] at hcurrent
        obtain rfl : s.metadata file = current := Except.ok.inj hcurrent
        have hlink : (s.metadata file).nlink = 1 := hn.nlink hpath
        rw [ownedRegular, sameFile, hlink] at hfalse
        simp at hfalse
    · intro e he
      rcases he with hrefusal | he
      · exact herr e (.inl hrefusal)
      · cases he
  · intro e he
    refine herr e ?_
    rcases he with hrefusal | he
    · exact .inl hrefusal
    · refine .inr fun hpath => ?_
      rw [answer_some hpath] at he
      cases he

/-- **`open_file`** of a file that has to be there. -/
theorem wp_openFile {path : Name} {Q : Except LogError ℕ → World → Prop} (hn : Named s) (hI : I s)
    (hok : ∀ file, s.names path = some file → Q (.ok file) s)
    (herr : ∀ e, Refusal refusals e ∨ (e = .notFound ∧ s.names path = none) → Q (.error e) s) :
    wp (machine refusals) Q I (openFile path false) s := by
  refine wp_io trivial hI ?_ ?_
  · show wp _ _ _ (Program.lift (mayOpen false (s.stat path)) >>= _) s
    cases hpath : s.names path with
    | none =>
      rw [stat_none hpath]
      exact wp_ret hI (herr _ (.inr ⟨rfl, hpath⟩))
    | some i =>
      have hlink : ownedRegular (s.metadata i) = true := beq_iff_eq.mpr (hn.nlink hpath)
      have hmay : mayOpen false (.ok (s.metadata i)) = .ok () := if_pos hlink
      have hopen : Op.exec (.openFile path false) s = (.ok i, s) := by
        simp [Op.exec, hpath]
      rw [stat_some hpath, hmay]
      have hplain : (Op.openFile path false).Plain := trivial
      show wp _ _ _ (perform (.openFile path false) >>= _) s
      refine wp_bind (wp_answers hplain hopen hI hI ?_ fun e he => herr e (.inl he))
      refine wp_bind (wp_attest hn hI ?_ ?_)
      · intro _
        exact wp_ret hI (hok i hpath)
      · intro e he
        rcases he with hrefusal | hne
        · exact herr e (.inl hrefusal)
        · exact absurd hpath hne
  · intro hrefusals
    exact wp_ret hI (herr _ (.inl ⟨hrefusals, rfl⟩))

end CakeAutorate.DaemonLog

/-
# The log follower

`LogFollower` of `operations/mqtt_publisher.rs` beside the writer of the log.  The writer appends to
the file that the path names; it rotates by a rename, after which that file is never written again,
and a create.  The follower holds a descriptor of a file and reads it from an offset;
`read_available` looks at the path, drains its file up to a bound, and switches to the file that the
path names if that is another one.

A state is the files, the path, the follower and where it stands in `read_available`; every event is
one system call of the follower, or one of the writer.  A file's number stands for its `dev` and
`ino`.
-/

import CakeAutorate.Machine.Run
import CakeAutorate.Syscall.Lines
import CakeAutorate.Wire.Text

namespace CakeAutorate.Publisher

open Syscall Machine List Option Function

def MAX_LOG_READ_BYTES : ℕ := 1024 * 1024
def MAX_PARTIAL_LINE_BYTES : ℕ := 64 * 1024

/-- `strip_suffix(b"\r")`, or all of it. -/
def stripCr (raw : Bytes) : Bytes := if raw.getLast? = some 0x0d then raw.dropLast else raw

/-- `std::str::from_utf8` accepts the line. -/
def isText (raw : Bytes) : Bool := (Wire.fromUtf8 (stripCr raw)).isSome

/-- The loop of `read_chunk`: the lines that it pushes, and what it leaves in `partial`. -/
def drainLines : Bytes → Bytes → Except String (List Bytes × Bytes)
  | line, [] => .ok ([], line)
  | line, b :: bytes =>
    if b = newline then
      if MAX_PARTIAL_LINE_BYTES < line.length then .error "MQTT log contains an oversized record"
      else if !isText line then .error "MQTT log record is not UTF-8"
      else (drainLines [] bytes).map fun drained => (stripCr line :: drained.1, drained.2)
    else drainLines (line ++ [b]) bytes

/-- `LogFollower`; `pending` is its `partial`. -/
structure Follower where
  inode : ℕ
  offset : ℕ
  pending : Bytes
  needsDrain : Bool

/-- `read_chunk` once its chunk is read. -/
def Follower.takeChunk (f : Follower) (maximum : ℕ) (chunk : Bytes) :
    Except String (List Bytes) × Follower :=
  let f := { f with needsDrain := chunk.length == maximum, offset := f.offset + chunk.length,
                    pending := f.pending ++ chunk }
  match drainLines [] f.pending with
  | .error error => (.error error, f)
  | .ok (lines, rest) =>
    if MAX_PARTIAL_LINE_BYTES < rest.length then
      (.error "MQTT log contains an oversized unterminated record", { f with pending := rest })
    else (.ok lines, { f with pending := rest })

/-- What `read_available` does with a chunk. -/
inductive Next where
  /-- The first chunk, of the file that is open; the path names another one or not. -/
  | drain (replaced : Bool)
  /-- The chunk of the file just opened, after the lines of the old one. -/
  | fresh (lines : List Bytes)

/-- Where the follower stands. -/
inductive Pc where
  | idle
  /-- In `read_to_end`, with the bytes read so far. -/
  | reading (maximum : ℕ) (chunk : Bytes) (next : Next)
  /-- Before the `symlink_metadata` of `open_log_file`. -/
  | inspecting (lines : List Bytes) (read : ℕ)
  /-- Before its `open`. -/
  | opening (lines : List Bytes) (read : ℕ) (inode : ℕ)
  /-- `read_available` answered `Err`. -/
  | failed (error : String)

/-- The log and its follower. -/
structure LogState where
  files : ℕ → Bytes
  created : ℕ
  /-- The file that the path names; none between the rename and the create. -/
  path : Option ℕ
  follower : Follower
  pc : Pc
  /-- The lines that all calls have returned. -/
  returned : List Bytes
  /-- The length of the first file when the follower opened it. -/
  base : ℕ
  /-- The lines that had been logged when the present call started. -/
  started : List Bytes

/-- What happens. -/
inductive Event where
  | append (bytes : Bytes)
  | rename
  | create
  /-- The next system call of the follower; a read returns up to `n + 1` bytes. -/
  | follower (n : ℕ)

namespace LogState

variable (s : LogState)

def since (g : ℕ) : Bytes := if g = 0 then (s.files 0).drop s.base else s.files g

def lines (bytes : Bytes) : List Bytes := (terminated [] bytes).map stripCr

/-- The lines of the first `n` files. -/
def linesOf (n : ℕ) : List Bytes := (List.range n).flatMap fun g => lines (s.since g)

/-- The newline-terminated lines appended since the follower was opened, each in the file
that it was appended to. -/
def logged : List Bytes := s.linesOf s.created

/-- The end of `read_available` or its second half. -/
def resume (next : Next) (lines : List Bytes) (read : ℕ) : LogState :=
  match next with
  | .drain replaced =>
    if !replaced || s.follower.needsDrain then { s with returned := s.returned ++ lines, pc := .idle }
    else { s with pc := .inspecting lines read }
  | .fresh old => { s with returned := s.returned ++ (old ++ lines), pc := .idle }

/-- The start of `read_chunk`. -/
def enter (maximum : ℕ) (next : Next) : LogState :=
  if maximum = 0 then resume { s with follower := { s.follower with needsDrain := true } } next [] 0
  else { s with pc := .reading maximum [] next }

/-- The start of `read_available`: the path is looked at. -/
def start : LogState :=
  match s.path with
  | none => enter { s with started := s.logged } MAX_LOG_READ_BYTES (.drain false)
  | some i =>
    if i ≠ s.follower.inode then
      enter { s with started := s.logged } MAX_LOG_READ_BYTES (.drain true)
    else if (s.files i).length < s.follower.offset then
      enter { s with started := s.logged, follower := { s.follower with offset := 0, pending := [] } }
        MAX_LOG_READ_BYTES (.drain false)
    else enter { s with started := s.logged } MAX_LOG_READ_BYTES (.drain false)

def available (maximum : ℕ) (chunk : Bytes) (n : ℕ) : Bytes :=
  ((s.files s.follower.inode).drop (s.follower.offset + chunk.length)).take
    (min (maximum - chunk.length) (n + 1))

/-- The end of `read_to_end`. -/
def finishChunk (maximum : ℕ) (chunk : Bytes) (next : Next) : LogState :=
  match s.follower.takeChunk maximum chunk with
  | (.error error, f) => { s with follower := f, pc := .failed error }
  | (.ok lines, f) => resume { s with follower := f } next lines chunk.length

def followerStep (n : ℕ) : LogState :=
  match s.pc with
  | .idle => s.start
  | .reading maximum chunk next =>
    if s.available maximum chunk n = [] then s.finishChunk maximum chunk next
    else { s with pc := .reading maximum (chunk ++ s.available maximum chunk n) next }
  | .inspecting lines read =>
    match s.path with
    | none => { s with pc := .failed "unable to inspect MQTT log" }
    | some i => { s with pc := .opening lines read i }
  | .opening lines read i =>
    match s.path with
    | none => { s with pc := .failed "unable to open MQTT log" }
    | some j =>
      if j ≠ i then { s with pc := .failed "MQTT log identity changed while opening" }
      else enter { s with follower := { s.follower with inode := j, offset := 0, pending := [] } }
        (MAX_LOG_READ_BYTES - read) (.fresh lines)
  | .failed _ => s

def step (s : LogState) : Event → LogState
  | .append bytes =>
    match s.path with
    | none => s
    | some g => { s with files := update s.files g (s.files g ++ bytes) }
  | .rename => { s with path := none }
  | .create =>
    { s with files := update s.files s.created [], path := some s.created,
             created := s.created + 1 }
  | .follower n => s.followerStep n

/-- `LogFollower::open`: at the end of the file. -/
def opened (content : Bytes) : LogState :=
  { files := fun _ => content, created := 1, path := some 0,
    follower := { inode := 0, offset := content.length, pending := [], needsDrain := false },
    pc := .idle, returned := [], base := content.length, started := [] }

/-- The events of the log: lines are text and within the bound, only complete lines are
rotated, and not a second time before the follower has switched. -/
def Allowed (s : LogState) : Event → Prop
  | .append bytes => ∃ g, s.path = some g ∧
      LinesFit MAX_PARTIAL_LINE_BYTES isText [] (s.since g ++ bytes)
  | .rename => s.path = some s.follower.inode ∧ unterminated [] (s.since s.follower.inode) = []
  | .create => s.path = none
  | .follower _ => True

end LogState

theorem drainLines_eq {line bytes : Bytes} (h : LinesFit MAX_PARTIAL_LINE_BYTES isText line bytes) :
    drainLines line bytes = .ok ((terminated line bytes).map stripCr, unterminated line bytes) := by
  induction bytes generalizing line with
  | nil => rfl
  | cons b bytes ih =>
    obtain ⟨hle, hok, hrest⟩ := h
    rw [terminated] at hle hok
    rw [unterminated] at hrest
    rw [drainLines, terminated, unterminated]
    split
    · rename_i hb
      rw [if_pos hb] at hle hok hrest
      have hlong : ¬ MAX_PARTIAL_LINE_BYTES < line.length := by
        have := hle line mem_cons_self
        omega
      have htext : ¬ (!isText line) = true := by simp [hok line mem_cons_self]
      rw [if_neg hlong, if_neg htext, ih ⟨fun l hl => hle l (mem_cons_of_mem _ hl),
        fun l hl => hok l (mem_cons_of_mem _ hl), hrest⟩]
      rfl
    · rename_i hb
      rw [if_neg hb] at hle hok hrest
      exact ih ⟨hle, hok, hrest⟩

theorem Follower.takeChunk_eq {f : Follower} {seen chunk : Bytes} (maximum : ℕ)
    (hpending : f.pending = unterminated [] seen)
    (hfits : LinesFit MAX_PARTIAL_LINE_BYTES isText [] (seen ++ chunk)) :
    f.takeChunk maximum chunk = (.ok ((terminated f.pending chunk).map stripCr),
      { inode := f.inode, offset := f.offset + chunk.length,
        pending := unterminated [] (seen ++ chunk), needsDrain := chunk.length == maximum }) := by
  obtain ⟨hnone, hsame⟩ := split_unterminated seen
  rw [← hpending] at hnone hsame
  have hlines : terminated [] (f.pending ++ chunk) = terminated f.pending chunk := by
    rw [terminated_append, hnone, hsame, nil_append]
  have hrest : unterminated [] (f.pending ++ chunk) = unterminated [] (seen ++ chunk) := by
    rw [unterminated_append, hsame, unterminated_append, ← hpending]
  have hmem : ∀ l ∈ terminated f.pending chunk, l ∈ terminated [] (seen ++ chunk) := by
    intro l hl
    rw [terminated_append, ← hpending]
    exact mem_append_right _ hl
  have hchunk : LinesFit MAX_PARTIAL_LINE_BYTES isText [] (f.pending ++ chunk) := by
    refine ⟨fun l hl => hfits.line_le l ?_, fun l hl => hfits.line_ok l ?_, ?_⟩
    · rw [hlines] at hl; exact hmem l hl
    · rw [hlines] at hl; exact hmem l hl
    · rw [hrest]; exact hfits.rest_le
  have hshort : ¬ MAX_PARTIAL_LINE_BYTES < (unterminated [] (seen ++ chunk)).length := by
    have := hfits.rest_le
    omega
  simp [takeChunk, drainLines_eq hchunk, hlines, hrest, if_neg hshort]

namespace LogState

variable {s s' : LogState}

theorem lines_append (a b : Bytes) :
    lines (a ++ b) = lines a ++ (terminated (unterminated [] a) b).map stripCr := by
  rw [lines, terminated_append, map_append]
  rfl

theorem lines_begins {a b : Bytes} (h : a <+: b) : lines a <+: lines b := by
  obtain ⟨rest, rfl⟩ := h
  rw [lines_append]
  exact prefix_append _ _

theorem linesOf_succ (s : LogState) (n : ℕ) : s.linesOf (n + 1) = s.linesOf n ++ lines (s.since n) := by
  simp [linesOf, range_succ]

variable {n : ℕ}

theorem linesOf_congr (h : ∀ g < n, s'.since g = s.since g) : s'.linesOf n = s.linesOf n := by
  refine flatMap_congr fun g hg => ?_
  rw [h g (mem_range.1 hg)]

def seen (s : LogState) : Bytes :=
  if s.follower.inode = 0 then ((s.files 0).take s.follower.offset).drop s.base
  else (s.files s.follower.inode).take s.follower.offset

def consumed (s : LogState) : List Bytes := s.linesOf s.follower.inode ++ lines s.seen

/-- The old file is read to its end, and the path names the next one. -/
structure Drained (s : LogState) (old : List Bytes) : Prop where
  lines_eq : s.returned ++ old = s.consumed
  offset_eq : s.follower.offset = (s.files s.follower.inode).length
  path_eq : s.path = some (s.follower.inode + 1)
  started : s.started <+: s.logged

def NextInv (s : LogState) (maximum : ℕ) : Next → Prop
  | .drain false => s.returned = s.consumed ∧ s.started <+: s.linesOf (s.follower.inode + 1)
  | .drain true => s.returned = s.consumed ∧ s.path = some (s.follower.inode + 1) ∧
      s.started <+: s.logged ∧ maximum = MAX_LOG_READ_BYTES
  | .fresh old => s.returned ++ old = s.consumed ∧ s.started <+: s.linesOf (s.follower.inode + 1)

def PcInv (s : LogState) : Pc → Prop
  | .idle => s.returned = s.consumed
  | .reading maximum chunk next =>
    0 < maximum ∧ chunk <+: (s.files s.follower.inode).drop s.follower.offset ∧
      chunk.length ≤ maximum ∧ s.NextInv maximum next
  | .inspecting old read => s.Drained old ∧ read < MAX_LOG_READ_BYTES
  | .opening old read i => s.Drained old ∧ read < MAX_LOG_READ_BYTES ∧ i = s.follower.inode + 1
  | .failed _ => False

/-- The invariant of the log and its follower. -/
structure Inv (s : LogState) : Prop where
  base_le : s.base ≤ (s.files 0).length
  place : (s.path = some s.follower.inode ∧ s.created = s.follower.inode + 1) ∨
    (s.path = none ∧ s.created = s.follower.inode + 1) ∨
    (s.path = some (s.follower.inode + 1) ∧ s.created = s.follower.inode + 2)
  fits : ∀ g < s.created, LinesFit MAX_PARTIAL_LINE_BYTES isText [] (s.since g)
  whole : ∀ g < s.created, s.path ≠ some g → unterminated [] (s.since g) = []
  offset_le : s.follower.offset ≤ (s.files s.follower.inode).length
  base_le_offset : s.follower.inode = 0 → s.base ≤ s.follower.offset
  pending : s.follower.pending = unterminated [] s.seen
  pc : s.PcInv s.pc

theorem Inv.inode_lt (h : s.Inv) : s.follower.inode < s.created := by
  rcases h.place with ⟨-, h⟩ | ⟨-, h⟩ | ⟨-, h⟩ <;> omega

theorem opened_inv (content : Bytes) : (opened content).Inv where
  base_le := le_rfl
  place := .inl ⟨rfl, rfl⟩
  fits g hg := by
    obtain rfl : g = 0 := by simpa [opened] using hg
    have hsince : (opened content).since 0 = [] := by simp [since, opened]
    rw [hsince]
    exact ⟨by simp [terminated], by simp [terminated], by simp [unterminated]⟩
  whole g hg hpath := by
    obtain rfl : g = 0 := by simpa [opened] using hg
    simp [opened] at hpath
  offset_le := le_rfl
  base_le_offset _ := le_rfl
  pending := by simp [opened, seen, unterminated]
  pc := by simp [PcInv, opened, consumed, seen, linesOf, lines, terminated]

theorem Inv.since_eq (h : s.Inv) : s.since s.follower.inode =
    s.seen ++ (s.files s.follower.inode).drop s.follower.offset := by
  unfold since seen
  split
  · rename_i hzero
    have hbase := h.base_le_offset hzero
    rw [hzero, ← drop_append_of_le_length, take_append_drop]
    rw [length_take]
    have := h.offset_le
    rw [hzero] at this
    omega
  · rw [take_append_drop]

/-- What the writer's events do to the rest of the state. -/
structure Grows (s s' : LogState) : Prop where
  follower : s'.follower = s.follower
  pc : s'.pc = s.pc
  returned : s'.returned = s.returned
  started : s'.started = s.started
  base : s'.base = s.base
  earlier : ∀ g < s.follower.inode, s'.since g = s.since g
  file : s.files s.follower.inode <+: s'.files s.follower.inode
  logged : s.logged <+: s'.logged
  path : s.path = some (s.follower.inode + 1) → s'.path = some (s.follower.inode + 1) ∧
    s'.files s.follower.inode = s.files s.follower.inode

section

variable (hg : Grows s s') (h : s.Inv)
include hg h

theorem Grows.seen_eq : s'.seen = s.seen := by
  obtain ⟨rest, hrest⟩ := hg.file
  have htake : (s'.files s.follower.inode).take s.follower.offset =
      (s.files s.follower.inode).take s.follower.offset := by
    rw [← hrest, take_append_of_le_length h.offset_le]
  unfold seen
  rw [hg.follower, hg.base]
  split
  · rename_i hzero
    rw [hzero] at htake
    rw [htake]
  · rw [htake]

theorem Grows.consumed_eq : s'.consumed = s.consumed := by
  unfold consumed
  rw [hg.seen_eq h, hg.follower, linesOf_congr hg.earlier]

theorem Grows.through : s.linesOf (s.follower.inode + 1) <+: s'.linesOf (s.follower.inode + 1) := by
  rw [linesOf_succ, linesOf_succ, linesOf_congr hg.earlier]
  refine prefix_append_right_inj _ |>.2 (lines_begins ?_)
  obtain ⟨rest, hrest⟩ := hg.file
  unfold since
  rw [hg.base]
  split
  · rename_i hzero
    rw [hzero] at hrest
    rw [← hrest, drop_append_of_le_length h.base_le]
    exact prefix_append _ _
  · exact ⟨rest, hrest⟩

theorem Grows.pcInv : s'.PcInv s'.pc := by
  have hpc := h.pc
  have hdrained : ∀ old, s.Drained old → s'.Drained old := by
    rintro old ⟨hlines, hoffset, hpath, hstarted⟩
    obtain ⟨hpath', hfile⟩ := hg.path hpath
    refine ⟨?_, ?_, ?_, ?_⟩
    · rw [hg.returned, hg.consumed_eq h, hlines]
    · rw [hg.follower, hfile, hoffset]
    · rw [hg.follower, hpath']
    · rw [hg.started]; exact hstarted.trans hg.logged
  rw [hg.pc]
  cases hcase : s.pc with
  | idle =>
    rw [hcase] at hpc
    simp only [PcInv] at hpc ⊢
    rw [hg.returned, hg.consumed_eq h, hpc]
  | reading maximum chunk next =>
    rw [hcase] at hpc
    obtain ⟨hpos, hchunk, hle, hnext⟩ := hpc
    refine ⟨hpos, ?_, hle, ?_⟩
    · obtain ⟨rest, hrest⟩ := hg.file
      rw [hg.follower, ← hrest, drop_append_of_le_length h.offset_le]
      exact hchunk.trans (prefix_append _ _)
    · cases next with
      | drain replaced =>
        cases replaced with
        | false =>
          obtain ⟨hreturned, hstarted⟩ := hnext
          refine ⟨by rw [hg.returned, hg.consumed_eq h, hreturned], ?_⟩
          rw [hg.started, hg.follower]
          exact hstarted.trans (hg.through h)
        | true =>
          obtain ⟨hreturned, hpath, hstarted, hmax⟩ := hnext
          refine ⟨by rw [hg.returned, hg.consumed_eq h, hreturned], ?_, ?_, hmax⟩
          · rw [hg.follower]; exact (hg.path hpath).1
          · rw [hg.started]; exact hstarted.trans hg.logged
      | fresh old =>
        obtain ⟨hreturned, hstarted⟩ := hnext
        refine ⟨by rw [hg.returned, hg.consumed_eq h, hreturned], ?_⟩
        rw [hg.started, hg.follower]
        exact hstarted.trans (hg.through h)
  | inspecting old read =>
    rw [hcase] at hpc
    exact ⟨hdrained old hpc.1, hpc.2⟩
  | opening old read i =>
    rw [hcase] at hpc
    exact ⟨hdrained old hpc.1, hpc.2.1, by rw [hg.follower]; exact hpc.2.2⟩
  | failed error =>
    rw [hcase] at hpc
    exact absurd hpc id

end

theorem since_append (h : s.Inv) {g : ℕ} (hpath : s.path = some g) (bytes : Bytes) (k : ℕ) :
    (s.step (.append bytes)).since k = if k = g then s.since g ++ bytes else s.since k := by
  have hfiles : (s.step (.append bytes)).files = update s.files g (s.files g ++ bytes) := by
    simp [step, hpath]
  have hbase : (s.step (.append bytes)).base = s.base := by simp [step, hpath]
  unfold since
  rw [hfiles, hbase]
  by_cases hk : k = g
  · subst hk
    rw [if_pos rfl]
    split
    · rename_i hzero
      subst hzero
      rw [update_self, drop_append_of_le_length h.base_le]
    · rw [update_self]
  · split
    · rename_i hzero
      subst hzero
      rw [update_of_ne hk]
    · rw [update_of_ne hk]

theorem Inv.append (h : s.Inv) {bytes : Bytes} (hallowed : s.Allowed (.append bytes)) :
    (s.step (.append bytes)).Inv := by
  obtain ⟨g, hpath, hfits⟩ := hallowed
  have hsince := since_append h hpath bytes
  have hstep : s.step (.append bytes) =
      { s with files := update s.files g (s.files g ++ bytes) } := by
    simp [step, hpath]
  have hlast : s.created = g + 1 := by
    rcases h.place with ⟨hp, hc⟩ | ⟨hp, -⟩ | ⟨hp, hc⟩
    · rw [hpath, some.injEq] at hp; omega
    · rw [hpath] at hp; cases hp
    · rw [hpath, some.injEq] at hp; omega
  have hfile : ∀ k, s.files k <+: (s.step (.append bytes)).files k := by
    intro k
    rw [hstep]
    by_cases hk : k = g
    · subst hk
      simp only [update_self]
      exact prefix_append _ _
    · simp only [update_of_ne hk]
      exact prefix_refl _
  have hgrows : Grows s (s.step (.append bytes)) := by
    refine ⟨by rw [hstep], by rw [hstep], by rw [hstep], by rw [hstep], by rw [hstep], ?_,
      hfile _, ?_, ?_⟩
    · intro k hk
      have := h.inode_lt
      rw [hsince, if_neg (by omega)]
    · have hcreated : (s.step (.append bytes)).created = g + 1 := by rw [hstep]; exact hlast
      unfold logged
      rw [hlast, hcreated, linesOf_succ, linesOf_succ,
        linesOf_congr (fun k hk => by rw [hsince, if_neg (by omega)]),
        hsince, if_pos rfl]
      exact prefix_append_right_inj _ |>.2 (lines_begins (prefix_append _ _))
    · intro hnext
      rw [hpath, some.injEq] at hnext
      refine ⟨by rw [hstep]; simp only [hpath, hnext], ?_⟩
      rw [hstep]
      simp only
      rw [update_of_ne (by omega)]
  have hpc := hgrows.pcInv h
  have hseen := hgrows.seen_eq h
  refine ⟨?_, ?_, ?_, ?_, ?_, ?_, ?_, hpc⟩
  · rw [hgrows.base]
    exact h.base_le.trans (hfile 0).length_le
  · rw [hgrows.follower, hstep]
    exact h.place
  · intro k hk
    rw [hsince]
    split
    · exact hfits
    · rw [hstep] at hk
      exact h.fits k hk
  · intro k hk hne
    rw [hstep] at hk hne
    simp only [hpath] at hne
    rw [hsince, if_neg (fun heq => hne (by rw [heq]))]
    exact h.whole k hk (by rw [hpath]; exact hne)
  · rw [hgrows.follower]
    exact h.offset_le.trans (hfile _).length_le
  · rw [hgrows.follower, hgrows.base]
    exact h.base_le_offset
  · rw [hgrows.follower, hseen]
    exact h.pending

theorem Inv.rename (h : s.Inv) (hallowed : s.Allowed .rename) : (s.step .rename).Inv := by
  obtain ⟨hpath, hwhole⟩ := hallowed
  have hgrows : Grows s (s.step .rename) := by
    refine ⟨rfl, rfl, rfl, rfl, rfl, fun _ _ => rfl, prefix_refl _, prefix_refl _, ?_⟩
    intro hnext
    rw [hpath, some.injEq] at hnext
    omega
  refine ⟨h.base_le, ?_, h.fits, ?_, h.offset_le, h.base_le_offset, h.pending, hgrows.pcInv h⟩
  · rcases h.place with ⟨-, hc⟩ | ⟨hp, -⟩ | ⟨hp, -⟩
    · exact .inr (.inl ⟨rfl, hc⟩)
    · rw [hpath] at hp; cases hp
    · rw [hpath, some.injEq] at hp; omega
  · intro g hg _
    by_cases hfile : g = s.follower.inode
    · subst hfile
      exact hwhole
    · exact h.whole g hg (by rw [hpath, ne_eq, some.injEq]; exact fun heq => hfile heq.symm)

theorem Inv.create (h : s.Inv) (hallowed : s.Allowed .create) : (s.step .create).Inv := by
  have hpath : s.path = none := hallowed
  have hcreated : s.created = s.follower.inode + 1 := by
    rcases h.place with ⟨hp, -⟩ | ⟨-, hc⟩ | ⟨hp, -⟩
    · rw [hpath] at hp; cases hp
    · exact hc
    · rw [hpath] at hp; cases hp
  have hfiles : ∀ k, k ≠ s.created → (s.step .create).files k = s.files k := fun k hk =>
    update_of_ne hk _ _
  have hsince : ∀ k < s.created, (s.step .create).since k = s.since k := by
    intro k hk
    unfold since
    split
    · rw [hfiles 0 (by omega)]
      rfl
    · rw [hfiles k (by omega)]
  have hnew : (s.step .create).since s.created = [] := by
    unfold since
    rw [if_neg (by omega)]
    exact update_self _ _ _
  have hgrows : Grows s (s.step .create) := by
    refine ⟨rfl, rfl, rfl, rfl, rfl, fun g hg => hsince g (by omega), ?_, ?_, ?_⟩
    · rw [hfiles _ (by omega)]
    · show s.linesOf s.created <+: (s.step .create).linesOf (s.created + 1)
      rw [linesOf_succ, linesOf_congr hsince]
      exact prefix_append _ _
    · intro hnext
      rw [hpath] at hnext
      cases hnext
  refine ⟨?_, ?_, ?_, ?_, ?_, h.base_le_offset, ?_, hgrows.pcInv h⟩
  · rw [hfiles 0 (by omega)]
    exact h.base_le
  · exact .inr (.inr ⟨by show some s.created = _; rw [hcreated]; rfl,
      by show s.created + 1 = _; rw [hcreated]; rfl⟩)
  · intro g hg
    by_cases hlast : g = s.created
    · subst hlast
      rw [hnew]
      exact ⟨by simp [terminated], by simp [terminated], by simp [unterminated]⟩
    · have hlt : g < s.created + 1 := hg
      rw [hsince g (by omega)]
      exact h.fits g (by omega)
  · intro g hg hne
    have hlt : g < s.created + 1 := hg
    have hother : g ≠ s.created := fun heq => hne (by rw [heq]; rfl)
    rw [hsince g (by omega)]
    exact h.whole g (by omega) (by rw [hpath]; exact fun heq => by cases heq)
  · show s.follower.offset ≤ ((s.step .create).files s.follower.inode).length
    rw [hfiles _ (by omega)]
    exact h.offset_le
  · rw [hgrows.seen_eq h]
    exact h.pending

theorem Inv.with_pc (h : s.Inv) {pc : Pc} {started : List Bytes}
    (hpc : PcInv { s with pc, started } pc) :
    Inv { s with pc, started } :=
  ⟨h.base_le, h.place, h.fits, h.whole, h.offset_le, h.base_le_offset, h.pending, hpc⟩

theorem Inv.start (h : s.Inv) (hidle : s.pc = .idle) : s.start.Inv := by
  have hreturned : s.returned = s.consumed := by
    have := h.pc
    rw [hidle] at this
    exact this
  have hpos : ¬ MAX_LOG_READ_BYTES = 0 := by decide
  -- a call that finds its file under the path, or no file, has all that was logged before it
  have hsame : s.created = s.follower.inode + 1 →
      Inv { s with pc := .reading MAX_LOG_READ_BYTES [] (.drain false), started := s.logged } := by
    intro hcreated
    refine h.with_pc ⟨by decide, nil_prefix, Nat.zero_le _, hreturned, ?_⟩
    show s.logged <+: s.linesOf (s.follower.inode + 1)
    rw [logged, hcreated]
  unfold LogState.start
  split
  · rename_i hpath
    refine hsame ?_
    rcases h.place with ⟨hp, -⟩ | ⟨-, hc⟩ | ⟨hp, -⟩
    · rw [hpath] at hp; cases hp
    · exact hc
    · rw [hpath] at hp; cases hp
  · rename_i i hpath
    split
    · rename_i hother
      refine h.with_pc ?_
      refine ⟨by decide, nil_prefix, Nat.zero_le _, hreturned, ?_, prefix_refl _, rfl⟩
      rcases h.place with ⟨hp, -⟩ | ⟨hp, -⟩ | ⟨hp, -⟩
      · rw [hpath, some.injEq] at hp; exact absurd hp hother
      · rw [hpath] at hp; cases hp
      · exact hp
    · rename_i hfile
      obtain rfl : i = s.follower.inode := not_not.1 hfile
      rw [if_neg (by have := h.offset_le; omega), enter, if_neg hpos]
      refine hsame ?_
      rcases h.place with ⟨-, hc⟩ | ⟨-, hc⟩ | ⟨hp, -⟩
      · exact hc
      · exact hc
      · rw [hpath, some.injEq] at hp; omega

variable {chunk : Bytes}

theorem Inv.read (h : s.Inv) {maximum : ℕ} {next : Next}
    (hpc : s.pc = .reading maximum chunk next) (n : ℕ) :
    Inv { s with pc := .reading maximum (chunk ++ s.available maximum chunk n) next } := by
  have hreading := h.pc
  rw [hpc] at hreading
  obtain ⟨hpos, hchunk, hle, hnext⟩ := hreading
  refine h.with_pc ⟨hpos, ?_, ?_, ?_⟩
  · obtain ⟨rest, hrest⟩ := hchunk
    have hmore : (s.files s.follower.inode).drop (s.follower.offset + chunk.length) = rest := by
      rw [← drop_drop, ← hrest, drop_left]
    rw [available, hmore, ← hrest]
    exact prefix_append_right_inj _ |>.2 (List.take_prefix _ _)
  · rw [length_append, available, length_take]
    omega
  · cases next with
    | drain replaced => cases replaced <;> exact hnext
    | fresh old => exact hnext

theorem resume_drain (s : LogState) (replaced : Bool) (lines : List Bytes) (read : ℕ) :
    s.resume (.drain replaced) lines read = if !replaced || s.follower.needsDrain then
      { s with returned := s.returned ++ lines, pc := .idle }
      else { s with pc := .inspecting lines read } := rfl

theorem start_started (s : LogState) : s.start.started = s.logged := by
  have henter : ∀ (t : LogState) maximum next, (t.enter maximum next).started = t.started := by
    intro t maximum next
    unfold enter
    split
    · unfold resume
      split
      · split <;> rfl
      · rfl
    · rfl
  unfold start
  split
  · rw [henter]
  · split
    · rw [henter]
    · split
      · rw [henter]
      · rw [henter]

def afterChunk (s : LogState) (maximum : ℕ) (chunk : Bytes) : LogState :=
  { s with follower := { inode := s.follower.inode, offset := s.follower.offset + chunk.length,
                         pending := unterminated [] (s.seen ++ chunk),
                         needsDrain := chunk.length == maximum } }

section

variable (h : s.Inv)
include h

theorem afterChunk_seen (maximum : ℕ)
    (hchunk : chunk <+: (s.files s.follower.inode).drop s.follower.offset) :
    (s.afterChunk maximum chunk).seen = s.seen ++ chunk := by
  have htake : (s.files s.follower.inode).take (s.follower.offset + chunk.length) =
      (s.files s.follower.inode).take s.follower.offset ++ chunk := by
    rw [take_add, ← prefix_iff_eq_take.1 hchunk]
  have hafter : (s.afterChunk maximum chunk).seen = if s.follower.inode = 0 then
      ((s.files 0).take (s.follower.offset + chunk.length)).drop s.base
      else (s.files s.follower.inode).take (s.follower.offset + chunk.length) := rfl
  rw [hafter, seen]
  by_cases hzero : s.follower.inode = 0
  · have hbase := h.base_le_offset hzero
    have hoffset := h.offset_le
    rw [hzero] at htake hoffset
    rw [if_pos hzero, if_pos hzero, htake, drop_append_of_le_length]
    rw [length_take]
    omega
  · rw [if_neg hzero, if_neg hzero, htake]

theorem Inv.finishChunk_eq (maximum : ℕ) (next : Next)
    (hchunk : chunk <+: (s.files s.follower.inode).drop s.follower.offset) :
    ∃ more, s.finishChunk maximum chunk next =
        (s.afterChunk maximum chunk).resume next more chunk.length ∧
      (s.afterChunk maximum chunk).consumed = s.consumed ++ more := by
  have hfits : LinesFit MAX_PARTIAL_LINE_BYTES isText [] (s.seen ++ chunk) := by
    obtain ⟨rest, hrest⟩ := hchunk
    have hall := h.fits _ h.inode_lt
    rw [h.since_eq, ← hrest, ← append_assoc] at hall
    exact hall.of_append
  refine ⟨(terminated s.follower.pending chunk).map stripCr, ?_, ?_⟩
  · unfold finishChunk
    rw [Follower.takeChunk_eq maximum h.pending hfits]
    rfl
  · unfold consumed
    rw [afterChunk_seen h maximum hchunk, lines_append, ← h.pending, ← append_assoc]
    rfl

theorem Inv.after_chunk {maximum : ℕ}
    (hchunk : chunk <+: (s.files s.follower.inode).drop s.follower.offset) {pc : Pc}
    {returned : List Bytes}
    (hpc : PcInv { s.afterChunk maximum chunk with pc, returned } pc) :
    Inv { s.afterChunk maximum chunk with pc, returned } := by
  have hseen := afterChunk_seen h maximum hchunk
  refine ⟨h.base_le, h.place, h.fits, h.whole, ?_, ?_, ?_, hpc⟩
  · have := hchunk.length_le
    have := h.offset_le
    rw [length_drop] at *
    show s.follower.offset + chunk.length ≤ (s.files s.follower.inode).length
    omega
  · intro hzero
    have := h.base_le_offset hzero
    show s.base ≤ s.follower.offset + chunk.length
    omega
  · show unterminated [] (s.seen ++ chunk) = unterminated [] (s.afterChunk maximum chunk).seen
    rw [hseen]

theorem Inv.read_to_end {maximum : ℕ}
    (hchunk : chunk <+: (s.files s.follower.inode).drop s.follower.offset)
    (hle : chunk.length ≤ maximum) (hfull : ¬ (chunk.length == maximum) = true)
    (hnone : s.available maximum chunk n = []) :
    s.follower.offset + chunk.length = (s.files s.follower.inode).length ∧
      (s.afterChunk maximum chunk).consumed = s.linesOf (s.follower.inode + 1) := by
  have hmore : (s.files s.follower.inode).drop (s.follower.offset + chunk.length) = [] := by
    rw [beq_iff_eq] at hfull
    rcases take_eq_nil_iff.1 hnone with hzero | hempty
    · omega
    · exact hempty
  have hlen := drop_eq_nil_iff.1 hmore
  have hchunklen := hchunk.length_le
  have hoffset := h.offset_le
  rw [length_drop] at hchunklen
  refine ⟨by omega, ?_⟩
  have hall : (s.files s.follower.inode).drop s.follower.offset = chunk := by
    obtain ⟨rest, hrest⟩ := hchunk
    rw [← drop_drop, ← hrest, drop_left] at hmore
    rw [← hrest, hmore, append_nil]
  unfold consumed
  rw [afterChunk_seen h maximum ⟨[], by rw [hall, append_nil]⟩, linesOf_succ, h.since_eq, hall]
  rfl

theorem Inv.finish {maximum : ℕ} {next : Next} (hpc : s.pc = .reading maximum chunk next)
    (hnone : s.available maximum chunk n = []) : (s.finishChunk maximum chunk next).Inv := by
  have hreading := h.pc
  rw [hpc] at hreading
  obtain ⟨-, hchunk, hle, hnext⟩ := hreading
  obtain ⟨more, hfinish, hconsumed⟩ := h.finishChunk_eq maximum next hchunk
  rw [hfinish]
  have hidle : ∀ lines, s.returned ++ lines = s.consumed ++ more →
      Inv { s.afterChunk maximum chunk with pc := .idle, returned := s.returned ++ lines } := by
    intro lines hlines
    refine h.after_chunk hchunk ?_
    show s.returned ++ lines = (s.afterChunk maximum chunk).consumed
    rw [hlines, hconsumed]
  cases next with
  | fresh old =>
    refine hidle (old ++ more) ?_
    rw [← append_assoc, hnext.1]
  | drain replaced =>
    rw [resume_drain]
    split
    · refine hidle more ?_
      cases replaced with
      | false => rw [hnext.1]
      | true => rw [hnext.1]
    · rename_i hswitch
      cases replaced with
      | false => simp at hswitch
      | true =>
        obtain ⟨hreturned, hpath, hstarted, hmax⟩ := hnext
        have hfull : ¬ (chunk.length == maximum) = true := fun hneeds =>
          hswitch (by rw [Bool.or_eq_true]; exact .inr hneeds)
        obtain ⟨hend, -⟩ := h.read_to_end hchunk hle hfull hnone
        rw [beq_iff_eq] at hfull
        refine h.after_chunk hchunk ?_
        refine ⟨⟨?_, hend, hpath, hstarted⟩, by omega⟩
        show s.returned ++ more = (s.afterChunk maximum chunk).consumed
        rw [hreturned, hconsumed]

theorem Inv.switch {old : List Bytes} {read i : ℕ} (hpc : s.pc = .opening old read i) :
    (enter { s with follower := { s.follower with inode := i, offset := 0, pending := [] } }
      (MAX_LOG_READ_BYTES - read) (.fresh old)).Inv := by
  have hopening := h.pc
  rw [hpc] at hopening
  obtain ⟨⟨hlines, hoffset, hpath, hstarted⟩, hread, rfl⟩ := hopening
  have hcreated : s.created = s.follower.inode + 2 := by
    rcases h.place with ⟨hp, -⟩ | ⟨hp, -⟩ | ⟨-, hc⟩
    · rw [hpath, some.injEq] at hp; omega
    · rw [hpath] at hp; cases hp
    · exact hc
  have hseen : ∀ t : LogState, t.follower.inode ≠ 0 → t.follower.offset = 0 → t.seen = [] := by
    intro t hinode hstart
    rw [seen, if_neg hinode, hstart, take_zero]
  rw [enter, if_neg (by omega)]
  refine ⟨h.base_le, .inl ⟨hpath, hcreated⟩, h.fits, h.whole, Nat.zero_le _, ?_, ?_, ?_⟩
  · intro hzero; cases hzero
  · rfl
  · refine ⟨by omega, nil_prefix, Nat.zero_le _, ?_, ?_⟩
    · show s.returned ++ old = s.linesOf (s.follower.inode + 1) ++ []
      rw [hlines, consumed, linesOf_succ, h.since_eq, hoffset, drop_length, append_nil, append_nil]
    · rw [logged, hcreated] at hstarted
      exact hstarted

theorem Inv.follower (n : ℕ) : (s.followerStep n).Inv := by
  have hinv := h.pc
  unfold followerStep
  split
  · rename_i hpc
    exact h.start hpc
  · rename_i maximum chunk next hpc
    split
    · rename_i hnone
      exact h.finish hpc hnone
    · exact h.read hpc n
  · rename_i old read hpc
    rw [hpc] at hinv
    obtain ⟨hdrained, hread⟩ := hinv
    split
    · rename_i hpath
      rw [hdrained.path_eq] at hpath
      cases hpath
    · rename_i i hpath
      rw [hdrained.path_eq, some.injEq] at hpath
      exact h.with_pc ⟨⟨hdrained.lines_eq, hdrained.offset_eq, hdrained.path_eq, hdrained.started⟩,
        hread, hpath.symm⟩
  · rename_i old read i hpc
    have hopening := hinv
    rw [hpc] at hopening
    obtain ⟨hdrained, -, hi⟩ := hopening
    split
    · rename_i hpath
      rw [hdrained.path_eq] at hpath
      cases hpath
    · rename_i j hpath
      rw [hdrained.path_eq, some.injEq] at hpath
      obtain rfl : j = i := by rw [hi, hpath]
      rw [if_neg (not_not.2 rfl)]
      exact h.switch hpc
  · exact h

/-- **Every event keeps the invariant.** -/
theorem Inv.step {e : Event} (hallowed : s.Allowed e) : (s.step e).Inv := by
  cases e with
  | append bytes => exact h.append hallowed
  | rename => exact h.rename hallowed
  | create => exact h.create hallowed
  | follower n => exact h.follower n

theorem Inv.consumed_begins : s.consumed <+: s.logged := by
  have hthrough : s.consumed <+: s.linesOf (s.follower.inode + 1) := by
    rw [consumed, linesOf_succ, h.since_eq]
    exact prefix_append_right_inj _ |>.2 (lines_begins (prefix_append _ _))
  refine hthrough.trans ?_
  rcases h.place with ⟨-, hc⟩ | ⟨-, hc⟩ | ⟨-, hc⟩
  · rw [logged, hc]
  · rw [logged, hc]
  · rw [logged, hc]
    exact ⟨_, (linesOf_succ s (s.follower.inode + 1)).symm⟩

theorem Inv.returned_begins : s.returned <+: s.logged := by
  refine IsPrefix.trans ?_ h.consumed_begins
  have hinv := h.pc
  cases hpc : s.pc with
  | idle =>
    rw [hpc] at hinv
    rw [show s.returned = s.consumed from hinv]
  | reading maximum chunk next =>
    rw [hpc] at hinv
    obtain ⟨-, -, -, hnext⟩ := hinv
    cases next with
    | drain replaced =>
      cases replaced with
      | false => rw [hnext.1]
      | true => rw [hnext.1]
    | fresh old => rw [← hnext.1]; exact prefix_append _ _
  | inspecting old read =>
    rw [hpc] at hinv
    rw [← hinv.1.lines_eq]
    exact prefix_append _ _
  | opening old read i =>
    rw [hpc] at hinv
    rw [← hinv.1.lines_eq]
    exact prefix_append _ _
  | failed error =>
    rw [hpc] at hinv
    exact absurd hinv id

theorem Inv.complete (hbusy : s.pc ≠ .idle) (hidle : (s.followerStep n).pc = .idle)
    (hdrained : (s.followerStep n).follower.needsDrain = false) :
    s.started <+: (s.followerStep n).returned := by
  have hinv := h.pc
  unfold followerStep at hidle hdrained ⊢
  cases hpc : s.pc with
  | idle => exact absurd hpc hbusy
  | reading maximum chunk next =>
    rw [hpc] at hinv
    obtain ⟨-, hchunk, hle, hnext⟩ := hinv
    simp only [hpc] at hidle hdrained ⊢
    split at hidle
    · rename_i hnone
      rw [if_pos hnone] at hdrained ⊢
      obtain ⟨more, hfinish, hconsumed⟩ := h.finishChunk_eq maximum next hchunk
      rw [hfinish] at hidle hdrained ⊢
      cases next with
      | fresh old =>
        have hfull : ¬ (chunk.length == maximum) = true := by
          rw [show (chunk.length == maximum) = false from hdrained]
          exact Bool.false_ne_true
        obtain ⟨-, hall⟩ := h.read_to_end hchunk hle hfull hnone
        show s.started <+: s.returned ++ (old ++ more)
        rw [← append_assoc, hnext.1, ← hconsumed, hall]
        exact hnext.2
      | drain replaced =>
        rw [resume_drain] at hidle hdrained ⊢
        split at hidle
        · rename_i hreturn
          rw [if_pos hreturn] at hdrained ⊢
          have hfull : ¬ (chunk.length == maximum) = true := by
            rw [show (chunk.length == maximum) = false from hdrained]
            exact Bool.false_ne_true
          obtain ⟨-, hall⟩ := h.read_to_end hchunk hle hfull hnone
          cases replaced with
          | false =>
            show s.started <+: s.returned ++ more
            rw [hnext.1, ← hconsumed, hall]
            exact hnext.2
          | true =>
            have hneeds : (s.afterChunk maximum chunk).follower.needsDrain = true := by
              simpa using hreturn
            exact absurd hneeds hfull
        · cases hidle
    · cases hidle
  | inspecting old read =>
    simp only [hpc] at hidle
    split at hidle
    · cases hidle
    · cases hidle
  | opening old read i =>
    rw [hpc] at hinv
    obtain ⟨hd, hread, rfl⟩ := hinv
    simp only [hpc] at hidle
    simp only [hd.path_eq] at hidle
    rw [if_neg (not_not.2 rfl), enter, if_neg (by omega)] at hidle
    cases hidle
  | failed error =>
    rw [hpc] at hinv
    exact absurd hinv id

end

theorem started_step (hbusy : s.pc ≠ .idle) (e : Event) : (s.step e).started = s.started := by
  cases e with
  | append bytes => simp only [step]; split <;> rfl
  | rename => rfl
  | create => rfl
  | follower n =>
    simp only [step, followerStep]
    split
    · rename_i hpc; exact absurd hpc hbusy
    · split
      · unfold finishChunk
        split
        · rfl
        · unfold resume
          split
          · split <;> rfl
          · rfl
      · rfl
    · split <;> rfl
    · split
      · rfl
      · split
        · rfl
        · unfold enter
          split
          · rfl
          · rfl
    · rfl

theorem started_run {during : List Event} (hbusy : ∀ p, p <+: during → (run step s p).pc ≠ .idle) :
    (run step s during).started = s.started := by
  induction during generalizing s with
  | nil => rfl
  | cons e during ih =>
    have hfirst : s.pc ≠ .idle := hbusy [] nil_prefix
    rw [run_cons, ih, started_step hfirst]
    intro p hp
    exact hbusy (e :: p) (cons_prefix_cons.2 ⟨rfl, hp⟩)

def history (content : Bytes) (events : List Event) : LogState := run step (opened content) events

theorem history_inv {content : Bytes} {events : List Event}
    (h : Along step Allowed (opened content) events) : (history content events).Inv :=
  run_along (P := Inv) (fun _ _ hs hallowed => hs.step hallowed) (opened_inv content) h

/-- **The follower loses and repeats nothing**, in every history in which only complete lines are
rotated, and not twice before the follower has switched: no call fails, the calls return the start
of the lines logged, and one that ends without `needs_drain` has returned all that was logged before
it started. -/
theorem log_follower_exact (content : Bytes) (events : List Event)
    (h : Along LogState.step LogState.Allowed (LogState.opened content) events) :
    (history content events).returned <+: (history content events).logged ∧
    (∀ error, (history content events).pc ≠ .failed error) ∧
    ∀ before n during m, events = before ++ .follower n :: (during ++ [.follower m]) →
      (history content before).pc = .idle →
      (∀ p, p <+: during → (history content (before ++ .follower n :: p)).pc ≠ .idle) →
      (history content events).pc = .idle → (history content events).follower.needsDrain = false →
      (history content before).logged <+: (history content events).returned := by
  have hinv := history_inv h
  refine ⟨hinv.returned_begins, ?_, ?_⟩
  · intro error hfailed
    have hpc := hinv.pc
    rw [hfailed] at hpc
    exact hpc
  · rintro before n during m rfl hstart hbusy hidle hdrained
    have hsplit : before ++ Event.follower n :: (during ++ [Event.follower m]) =
        (before ++ Event.follower n :: during) ++ [Event.follower m] := by simp
    have hcall : ∀ p, history content (before ++ Event.follower n :: p) =
        run step ((history content before).followerStep n) p := by
      intro p
      rw [history, run_append, run_cons]
      rfl
    have hlast : history content (before ++ Event.follower n :: (during ++ [Event.follower m])) =
        (history content (before ++ Event.follower n :: during)).followerStep m := by
      rw [hsplit, history, run_append]
      rfl
    rw [hlast] at hidle hdrained ⊢
    rw [hsplit] at h
    have hmid := history_inv h.of_append
    have hkept : (history content (before ++ Event.follower n :: during)).started =
        (history content before).logged := by
      rw [hcall, started_run fun p hp => by rw [← hcall]; exact hbusy p hp, followerStep, hstart]
      exact start_started _
    rw [← hkept]
    exact hmid.complete (hbusy during (prefix_refl _)) hidle hdrained

def rotated : List Event :=
  [.append [0x61, 0x0a], .follower 9, .follower 9, .follower 9, .rename, .create,
    .append [0x62, 0x0d, 0x0a], .follower 9, .follower 9, .follower 9, .follower 9, .follower 9,
    .follower 9]

theorem log_follower_exact_rotated :
    (history [0x78] rotated).returned = [[0x61], [0x62]] ∧
      (history [0x78] rotated).returned <+: (history [0x78] rotated).logged := by
  refine ⟨by decide +kernel, (log_follower_exact [0x78] rotated ?_).1⟩
  refine ⟨⟨0, rfl, ⟨by decide, by decide, by decide⟩⟩, trivial, trivial, trivial, ?_, rfl, ?_, trivial,
    trivial, trivial, trivial, trivial, trivial, trivial⟩
  · exact ⟨rfl, by decide⟩
  · exact ⟨1, rfl, ⟨by decide, by decide, by decide⟩⟩

end LogState

end CakeAutorate.Publisher

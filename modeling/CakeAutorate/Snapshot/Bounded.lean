/-
# What the scan lets through

In a text of JSON a colon comes after a string exactly where the string is a key, so the scan finds
the keys of each object, in the order of the text, and nothing else. It goes through when each
object has at most 64 keys, none of them twice or longer than 128 bytes, and objects nest at most 16
deep.
-/

import CakeAutorate.Snapshot.Scan

namespace CakeAutorate.Snapshot

open List Prod
open Syscall (Bytes)

/-- The keys that an object may have. -/
structure Keys (keys : List Bytes) : Prop where
  nodup : keys.Nodup
  length_le : keys.length ≤ 64
  short : ∀ key ∈ keys, key.length ≤ 128

/-- A value whose objects have such keys and nest at most as deep. -/
inductive Within : ℕ → Value → Prop
  | scalar {depth : ℕ} {raw : Bytes} : Within depth (.scalar raw)
  | str {depth : ℕ} {s : Bytes} : Within depth (.str s)
  | arr {depth : ℕ} {items : List Value} (h : ∀ v ∈ items, Within depth v) :
      Within depth (.arr items)
  | obj {depth : ℕ} {members : List (Bytes × Value)} (hkeys : Keys (members.map fst))
      (h : ∀ m ∈ members, Within depth m.2) : Within (depth + 1) (.obj members)

variable {serde : Serde} {rest raw key w : Bytes} {scopes : List (List Bytes)} {items : List Value}

theorem within_arr {depth : ℕ} : Within depth (.arr items) ↔ ∀ v ∈ items, Within depth v := by
  constructor
  · rintro ⟨⟩
    assumption
  · exact .arr

variable {members : List (Bytes × Value)}

theorem within_obj {depth : ℕ} :
    Within (depth + 1) (.obj members) ↔
      Keys (members.map fst) ∧ ∀ m ∈ members, Within depth m.2 := by
  constructor
  · rintro ⟨⟩
    exact ⟨by assumption, by assumption⟩
  · rintro ⟨hkeys, h⟩
    exact .obj hkeys h

theorem keys_nil : Keys [] := ⟨nodup_nil, Nat.zero_le _, by simp⟩

theorem Keys.of_append {keys more : List Bytes} (h : Keys (keys ++ more)) : Keys keys := by
  refine ⟨(nodup_append.mp h.nodup).1, ?_, fun key hkey => h.short key (mem_append_left _ hkey)⟩
  have hlength := h.length_le
  rw [length_append] at hlength
  omega

theorem keys_push {keys : List Bytes} (h : Keys keys) (key : Bytes) :
    Keys (keys ++ [key]) ↔ ¬(key.length > 128 ∨ keys.length = 64 ∨ keys.contains key) := by
  rw [contains_iff_mem]
  have hle := h.length_le
  constructor
  · rintro hpush (hlong | hfull | hmem)
    · have hshort := hpush.short key (by simp)
      omega
    · have hlength := hpush.length_le
      rw [length_append, length_singleton] at hlength
      omega
    · exact (nodup_append.mp hpush.nodup).2.2 key hmem key mem_cons_self rfl
  · intro hgood
    obtain ⟨hshort, hrest⟩ := not_or.mp hgood
    obtain ⟨hfull, hmem⟩ := not_or.mp hrest
    refine ⟨?_, ?_, ?_⟩
    · refine nodup_append.mpr ⟨h.nodup, pairwise_singleton _ _, fun k hk k' hk' => ?_⟩
      rw [mem_singleton.mp hk']
      rintro rfl
      exact hmem hk
    · rw [length_append, length_singleton]
      omega
    · intro k hk
      rcases mem_append.mp hk with hk | hk
      · exact h.short k hk
      · rw [mem_singleton.mp hk]
        omega

/-- **No slice is out of bounds**, whatever the bytes are. -/
theorem scan_ne_panicked (serde : Serde) (rest : Bytes) (scopes : List (List Bytes)) :
    scan serde rest scopes ≠ .error .panicked := by
  induction hn : rest.length using Nat.strong_induction_on generalizing rest scopes with
  | _ n ih =>
    have hnext : ∀ next : Bytes, next.length < n → ∀ scopes,
        scan serde next scopes ≠ .error .panicked := fun next hlt scopes => ih _ hlt next scopes rfl
    cases rest with
    | nil =>
      rw [scan.eq_def]
      intro h
      cases h
    | cons b tail =>
      rw [length_cons] at hn
      have htail := hnext tail (by omega)
      have hdrop := hnext ((b :: tail).drop (1 + closing tail + 1))
        (by rw [length_drop, length_cons]; omega)
      rw [scan.eq_def]
      dsimp only
      split
      · split
        · intro h
          cases h
        · exact htail _
      · split
        · split
          · intro h
            cases h
          · exact htail _
        · split
          · split
            · rename_i hcolon
              split
              · -- nothing is left, so no colon comes next
                rw [drop_eq_nil_of_le (by rw [length_cons]; omega)] at hcolon
                cases hcolon
              · cases hpush : pushKey serde ((b :: tail).take (1 + closing tail + 1)) scopes with
                | error failure =>
                  intro h
                  cases h
                  unfold pushKey at hpush
                  split at hpush
                  · split at hpush <;> cases hpush
                  · cases hpush
                | ok scopes => exact hdrop scopes
            · exact hdrop _
          · exact htail _

theorem scan_plain (hw : ∀ b ∈ w, b ≠ 0x22 ∧ b ≠ 0x7b ∧ b ≠ 0x7d) :
    scan serde (w ++ rest) scopes = scan serde rest scopes := by
  induction w with
  | nil => rfl
  | cons b w ih =>
    obtain ⟨hquote, hopen, hclose⟩ := hw b mem_cons_self
    rw [cons_append, scan.eq_def]
    dsimp only
    rw [if_neg hopen, if_neg hclose, if_neg hquote]
    exact ih fun b hb => hw b (mem_cons_of_mem _ hb)

theorem White.plain (hw : White w) : ∀ b ∈ w, b ≠ 0x22 ∧ b ≠ 0x7b ∧ b ≠ 0x7d := by
  intro b hb
  rcases hw b hb with rfl | rfl | rfl | rfl <;> decide

theorem scan_byte {b : UInt8} (hb : b ≠ 0x22 ∧ b ≠ 0x7b ∧ b ≠ 0x7d) :
    scan serde (b :: rest) scopes = scan serde rest scopes :=
  scan_plain (w := [b]) (by simpa using hb)

theorem colonNext_white (hw : White w) : colonNext (w ++ rest) = colonNext rest := by
  induction w with
  | nil => rfl
  | cons b w ih =>
    have hb : isAsciiWhitespace b = true := by
      rcases hw b mem_cons_self with rfl | rfl | rfl | rfl <;> rfl
    rw [← ih fun b hb => hw b (mem_cons_of_mem _ hb), cons_append, colonNext,
      dropWhile_cons_of_pos hb]
    rfl

theorem closing_quote (h : Closed raw) : closing (raw ++ 0x22 :: rest) = raw.length := by
  induction h with
  | nil => cases rest <;> rfl
  | @byte b raw hquote hescape _ ih =>
    obtain ⟨c, cs, hcs⟩ : ∃ c cs, raw ++ 0x22 :: rest = c :: cs := by cases raw <;> simp
    rw [hcs] at ih
    rw [cons_append, hcs, closing, if_neg hquote, if_neg hescape, ih, length_cons]
    omega
  | @escape b raw _ ih =>
    rw [cons_append, cons_append, closing, if_neg (by decide), if_pos rfl, ih]
    simp only [length_cons]
    omega

/-- **A string is passed as a whole**, and is a key where a colon comes next. -/
theorem scan_quote (h : Closed raw) :
    scan serde (quote raw ++ rest) scopes =
      if colonNext rest then
        pushKey serde (quote raw) scopes >>= fun scopes => scan serde rest scopes
      else scan serde rest scopes := by
  have hsize : 1 + closing (raw ++ 0x22 :: rest) + 1 = (quote raw).length := by
    rw [closing_quote h, quote, length_append, length_cons]
    simp only [length_cons, length_nil]
    omega
  have hshape : quote raw ++ rest = 0x22 :: (raw ++ 0x22 :: rest) := by simp [quote]
  have hfits : ¬(raw ++ 0x22 :: rest).length + 1 < (quote raw).length := by
    rw [← length_cons (a := 0x22), ← hshape, length_append]
    omega
  rw [hshape, scan.eq_def]
  dsimp only
  rw [if_neg (by decide), if_neg (by decide), if_pos rfl]
  rw [hsize, ← hshape, drop_left, take_left, if_neg hfits]

theorem scan_key (h : serde.unescape raw = some key) {keys : List Bytes} {outer : List (List Bytes)}
    (hkeys : Keys keys) (hcolon : colonNext rest = true) :
    scan serde (quote raw ++ rest) (keys :: outer) = .ok () ↔
      Keys (keys ++ [key]) ∧ scan serde rest ((keys ++ [key]) :: outer) = .ok () := by
  rw [scan_quote (serde.unescape_closed _ _ h), if_pos hcolon, keys_push hkeys key]
  unfold pushKey
  rw [serde.string_quoted _ _ h]
  dsimp only
  split
  · rename_i hbad
    exact iff_of_false nofun fun h => h.1 hbad
  · rename_i hgood
    exact (and_iff_right hgood).symm

def Passes (serde : Serde) (P : ℕ → Prop) (t : Bytes) : Prop :=
  ∀ (rest : Bytes) (scopes : List (List Bytes)), scopes.length ≤ 16 → colonNext rest = false →
    (scan serde (t ++ rest) scopes = .ok () ↔
      P (16 - scopes.length) ∧ scan serde rest scopes = .ok ())

def PassesMembers (serde : Serde) (members : List (Bytes × Value)) (t : Bytes) : Prop :=
  ∀ (rest : Bytes) (keys : List Bytes) (outer : List (List Bytes)), outer.length + 1 ≤ 16 →
    Keys keys → colonNext rest = false →
    (scan serde (t ++ rest) (keys :: outer) = .ok () ↔
      (Keys (keys ++ members.map fst) ∧ ∀ m ∈ members, Within (15 - outer.length) m.2) ∧
        scan serde rest ((keys ++ members.map fst) :: outer) = .ok ())

theorem passes_str {s : Bytes} (h : serde.unescape raw = some s) :
    Passes serde (fun depth => Within depth (.str s)) (quote raw) := by
  intro rest scopes _ hcolon
  rw [scan_quote (serde.unescape_closed _ _ h), hcolon]
  exact (and_iff_right .str).symm

theorem passes_arr {t : Bytes} (h : Passes serde (fun depth => ∀ v ∈ items, Within depth v) t) :
    Passes serde (fun depth => Within depth (.arr items)) (0x5b :: t ++ [0x5d]) := by
  intro rest scopes hle _
  rw [append_assoc, cons_append, scan_byte (by decide), h _ _ hle rfl,
    singleton_append, scan_byte (by decide)]
  dsimp only
  rw [within_arr]

theorem passes_obj {t : Bytes} (h : PassesMembers serde members t) :
    Passes serde (fun depth => Within depth (.obj members)) (0x7b :: t ++ [0x7d]) := by
  intro rest scopes hle _
  rw [append_assoc, cons_append, scan.eq_def]
  dsimp only
  rw [if_pos rfl]
  by_cases hfull : scopes.length = 16
  · rw [if_pos hfull, hfull]
    refine iff_of_false nofun ?_
    rintro ⟨⟨⟩, _⟩
  · rw [if_neg hfull, h _ _ _ (by omega) keys_nil rfl, nil_append]
    have hdepth : 16 - scopes.length = (15 - scopes.length) + 1 := by omega
    rw [hdepth, within_obj, singleton_append]
    refine and_congr_right fun _ => ?_
    rw [scan.eq_def]
    rfl

variable {v : Value}

theorem passes_one {w t w' : Bytes} (hw : White w)
    (h : Passes serde (fun depth => Within depth v) t) (hw' : White w') :
    Passes serde (fun depth => ∀ v' ∈ [v], Within depth v') (w ++ t ++ w') := by
  intro rest scopes hle hcolon
  rw [append_assoc, append_assoc, scan_plain hw.plain,
    h _ _ hle ((colonNext_white hw').trans hcolon), scan_plain hw'.plain]
  simp

theorem passes_cons {vs : List Value} {t t' : Bytes}
    (h : Passes serde (fun depth => ∀ v' ∈ [v], Within depth v') t)
    (h' : Passes serde (fun depth => ∀ v' ∈ vs, Within depth v') t') :
    Passes serde (fun depth => ∀ v' ∈ v :: vs, Within depth v') (t ++ 0x2c :: t') := by
  intro rest scopes hle hcolon
  rw [append_assoc, h _ _ hle rfl, cons_append, scan_byte (by decide), h' _ _ hle hcolon]
  dsimp only
  rw [forall_mem_singleton, forall_mem_cons, and_assoc]

theorem passesMembers_one {key : Bytes} {w w' t : Bytes} (hw : White w)
    (hkey : serde.unescape raw = some key) (hw' : White w')
    (h : Passes serde (fun depth => ∀ v' ∈ [v], Within depth v') t) :
    PassesMembers serde [(key, v)] (w ++ quote raw ++ w' ++ 0x3a :: t) := by
  intro rest keys outer hle hkeys hcolon
  have hnext : colonNext (w' ++ 0x3a :: (t ++ rest)) = true := colonNext_white hw'
  rw [append_assoc, append_assoc, append_assoc, cons_append,
    scan_plain hw.plain, scan_key hkey hkeys hnext, scan_plain hw'.plain, scan_byte (by decide),
    h rest ((keys ++ [key]) :: outer) hle hcolon]
  simp [and_assoc]

theorem passesMembers_cons {m : Bytes × Value} {ms : List (Bytes × Value)} {t t' : Bytes}
    (h : PassesMembers serde [m] t) (h' : PassesMembers serde ms t') :
    PassesMembers serde (m :: ms) (t ++ 0x2c :: t') := by
  intro rest keys outer hle hkeys hcolon
  rw [append_assoc, h _ _ _ hle hkeys rfl, cons_append, scan_byte (by decide)]
  constructor
  · rintro ⟨⟨hpush, hm⟩, hscan⟩
    obtain ⟨⟨hall, hms⟩, hscan⟩ := (h' _ _ _ hle hpush hcolon).mp hscan
    rw [append_assoc] at hall hscan
    exact ⟨⟨hall, forall_mem_cons.mpr ⟨hm m mem_cons_self, hms⟩⟩, hscan⟩
  · rintro ⟨⟨hall, hms⟩, hscan⟩
    obtain ⟨hm, hms⟩ := forall_mem_cons.mp hms
    have happend : keys ++ (m :: ms).map fst = (keys ++ [m].map fst) ++ ms.map fst :=
      (append_assoc keys [m.1] _).symm
    rw [happend] at hall hscan
    have hpush : Keys (keys ++ [m].map fst) := hall.of_append
    exact ⟨⟨hpush, by simpa using hm⟩, (h' _ _ _ hle hpush hcolon).mpr ⟨⟨hall, hms⟩, hscan⟩⟩

/-- **The scan of a text of JSON.** -/
theorem scan_items {t : Bytes} (h : serde.Items items t) :
    Passes serde (fun depth => ∀ v ∈ items, Within depth v) t := by
  refine @Words.Items.rec serde.toWords (fun v t _ => Passes serde (fun depth => Within depth v) t)
    (fun items t _ => Passes serde (fun depth => ∀ v ∈ items, Within depth v) t)
    (fun members t _ => PassesMembers serde members t)
    ?_ ?_ ?_ ?_ ?_ ?_ ?_ ?_ ?_ ?_ items t h
  · intro raw h rest scopes _ _
    rw [scan_plain (serde.scalar_plain _ h)]
    exact (and_iff_right .scalar).symm
  · exact passes_str
  · exact fun _ ih => passes_arr ih
  · exact fun _ ih => passes_obj ih
  · intro w hw rest scopes _ _
    rw [scan_plain hw.plain]
    simp
  · exact fun hw _ hw' ih => passes_one hw ih hw'
  · exact fun _ _ ih ih' => passes_cons ih ih'
  · intro w hw rest keys outer _ hkeys _
    rw [scan_plain hw.plain]
    simp [hkeys]
  · exact fun hw hkey hw' _ ih => passesMembers_one hw hkey hw' ih
  · exact fun _ _ ih ih' => passesMembers_cons ih ih'

/-- **A document goes through** exactly when its objects are bounded and have no key twice. -/
theorem scan_document {input : Bytes} (h : serde.Document v input) :
    scan serde input [] = .ok () ↔ Within 16 v := by
  have hscan := scan_items h [] [] (Nat.zero_le _) rfl
  rw [append_nil] at hscan
  dsimp only at hscan
  rw [hscan, forall_mem_singleton, scan.eq_def]
  exact and_iff_left rfl

end CakeAutorate.Snapshot

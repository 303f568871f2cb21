import Mathlib.Data.List.Basic
import Mathlib.Data.Nat.Notation

/-! # Dotted quads

A number of 32 bits as four octets in decimal with dots between them. `parse` reads such a text from
left to right, and accepts no other: no octet above 255, no leading zero, nothing behind the fourth
(`parse_eq_some_iff`).
-/

namespace Ltm.DottedQuad
set_option autoImplicit false
set_option maxHeartbeats 250000

def digit (c : Char) : ℕ := c.toNat - 48

/-- The octets of a text, those of `done` before it, the digits of `cur` read of the next one. -/
def scan (done : List ℕ) (cur : Option ℕ) : List Char → Option (List ℕ)
  | [] =>
    match cur with
    | some n => if done.length = 3 then some (done ++ [n]) else none
    | none => none
  | c :: l =>
    if c.isDigit then
      match cur with
      | none => scan done (some (digit c)) l
      | some n => if n = 0 ∨ 255 < 10 * n + digit c then none else scan done (some (10 * n + digit c)) l
    else if c = '.' then
      match cur with
      | some n => if done.length = 3 then none else scan (done ++ [n]) none l
      | none => none
    else none

def ofOctets (os : List ℕ) : ℕ := os.foldl (fun n o => 256 * n + o) 0

def octets (n : ℕ) : List ℕ := [n / 16777216, n / 65536 % 256, n / 256 % 256, n % 256]

def text (os : List ℕ) : List Char := ['.'].intercalate (os.map (Nat.toDigits 10))

def print (n : ℕ) : List Char := text (octets n)

def parse (l : List Char) : Option ℕ := (scan [] none l).map ofOctets

variable {done os q : List ℕ} {cur : Option ℕ} {n : ℕ} {c : Char} {l rest : List Char}

/-! ## Digits -/

theorem digit_digitChar : ∀ d < 10, digit (Nat.digitChar d) = d ∧ (Nat.digitChar d).isDigit = true := by
  decide

theorem digitChar_digit (h : c.isDigit = true) : Nat.digitChar (digit c) = c ∧ digit c < 10 := by
  simp only [Char.isDigit, Bool.and_eq_true, decide_eq_true_eq] at h
  have hlo : 48 ≤ c.toNat := h.1
  have hhi : c.toNat ≤ 57 := h.2
  have hd : digit c < 10 := by
    unfold digit
    omega
  have hall : ∀ d < 10, Nat.digitChar d = Char.ofNat (48 + d) := by decide
  refine ⟨?_, hd⟩
  rw [hall _ hd, digit, Nat.add_sub_cancel' hlo, Char.ofNat_toNat]

theorem toDigits_digit (h : c.isDigit = true) : Nat.toDigits 10 (digit c) = [c] := by
  obtain ⟨hc, hd⟩ := digitChar_digit h
  rw [Nat.toDigits_of_lt_base hd, hc]

theorem toDigits_push (hn : n ≠ 0) (h : c.isDigit = true) :
    Nat.toDigits 10 (10 * n + digit c) = Nat.toDigits 10 n ++ [c] := by
  rw [← toDigits_digit h]
  exact (Nat.toDigits_append_toDigits (by decide) (Nat.pos_of_ne_zero hn) (digitChar_digit h).2).symm

theorem text_cons (hos : os ≠ []) : text (n :: os) = Nat.toDigits 10 n ++ '.' :: text os := by
  rw [text, List.map_cons, List.intercalate_cons_of_ne_nil (by simpa using hos)]
  simp [text]

/-! ## What is written is read -/

theorem scan_octet (hn : n ≤ 255) :
    scan done none (Nat.toDigits 10 n ++ rest) = scan done (some n) rest := by
  induction n using Nat.strongRecOn generalizing rest with
  | ind n ih =>
      by_cases hlt : n < 10
      · obtain ⟨hd, hdig⟩ := digit_digitChar n hlt
        rw [Nat.toDigits_of_lt_base hlt, List.singleton_append, scan, if_pos hdig, hd]
      · obtain ⟨hd, hdig⟩ := digit_digitChar (n % 10) (Nat.mod_lt n (by decide))
        have hval : 10 * (n / 10) + n % 10 = n := Nat.div_add_mod n 10
        have hprev : ¬(n / 10 = 0 ∨ 255 < n) := by omega
        rw [Nat.toDigits_of_base_le (by decide) (Nat.le_of_not_lt hlt), List.append_assoc,
          List.singleton_append, ih (n / 10) (by omega) (by omega), scan, if_pos hdig, hd, hval,
          if_neg hprev]

theorem scan_dot : scan done (some n) ('.' :: l) =
    if done.length = 3 then none else scan (done ++ [n]) none l := by
  rw [scan, if_neg (by decide), if_pos rfl]

theorem scan_text (hlen : done.length + os.length = 4) (hos : os ≠ []) (hle : ∀ o ∈ os, o ≤ 255) :
    scan done none (text os) = some (done ++ os) := by
  induction os generalizing done with
  | nil => exact absurd rfl hos
  | cons n os ih =>
      rw [List.length_cons] at hlen
      have hn := hle n List.mem_cons_self
      by_cases hend : os = []
      · subst hend
        have hthree : done.length = 3 := by simpa using hlen
        have htext : text [n] = Nat.toDigits 10 n ++ [] := by simp [text]
        rw [htext, scan_octet hn, scan, if_pos hthree]
      · have hpos := List.length_pos_iff.mpr hend
        have hrest := @ih (done ++ [n]) (by rw [List.length_append, List.length_singleton]; omega) hend
          fun o ho => hle o (List.mem_cons_of_mem n ho)
        rw [text_cons hend, scan_octet hn, scan_dot, if_neg (by omega), hrest, List.append_assoc]
        rfl

/-! ## What is read is so written -/

/-- The text `l` is that of the octets which `q` has behind those of `done`. -/
def Reads (done q : List ℕ) (l : List Char) : Prop :=
  ∃ os, os ≠ [] ∧ q = done ++ os ∧ q.length = 4 ∧ (∀ o ∈ os, o ≤ 255) ∧ l = text os

/-- The text read of the octet `cur`. -/
def pending (cur : Option ℕ) : List Char := (cur.map (Nat.toDigits 10)).getD []

theorem reads_of_scan (h : scan done cur l = some q) (hcur : ∀ n ∈ cur, n ≤ 255) :
    Reads done q (pending cur ++ l) := by
  induction l generalizing done cur with
  | nil =>
      cases cur with
      | none =>
          rw [scan] at h
          exact absurd h (by simp)
      | some n =>
          rw [scan] at h
          obtain ⟨hlen, hq⟩ := Option.ite_none_right_eq_some.mp h
          obtain rfl := Option.some.inj hq
          refine ⟨[n], by simp, rfl, by simp [hlen], by simpa using hcur n rfl, ?_⟩
          simp [pending, text]
  | cons c l ih =>
      by_cases hdig : c.isDigit = true
      · cases cur with
        | none =>
            rw [scan, if_pos hdig] at h
            have hd := (digitChar_digit hdig).2
            have hrest := ih h fun n hn => by
              obtain rfl := Option.some.inj hn
              omega
            rw [pending, Option.map_some, Option.getD_some, toDigits_digit hdig] at hrest
            exact hrest
        | some n =>
            rw [scan, if_pos hdig] at h
            obtain ⟨hno, h⟩ := Option.ite_none_left_eq_some.mp h
            obtain ⟨hcero, hle⟩ := not_or.mp hno
            have hrest := ih h fun m hm => by
              obtain rfl := Option.some.inj hm
              omega
            rw [pending, Option.map_some, Option.getD_some, toDigits_push hcero hdig, List.append_assoc]
              at hrest
            exact hrest
      · cases cur with
        | none =>
            rw [scan, if_neg hdig] at h
            exact absurd h (by simp)
        | some n =>
            rw [scan, if_neg hdig] at h
            obtain ⟨rfl, h⟩ := Option.ite_none_right_eq_some.mp h
            obtain ⟨-, h⟩ := Option.ite_none_left_eq_some.mp h
            obtain ⟨os, hos, rfl, hlen, hle, hl⟩ := ih h (by simp)
            refine ⟨n :: os, by simp, by simp, hlen, ?_, ?_⟩
            · rintro o (_ | ⟨_, ho⟩)
              · exact hcur _ rfl
              · exact hle o ho
            · rw [text_cons hos, ← hl]
              rfl

theorem parse_eq_some_iff : parse l = some n ↔ n < 4294967296 ∧ l = print n := by
  constructor
  · intro h
    obtain ⟨q, hq, rfl⟩ := Option.map_eq_some_iff.mp h
    obtain ⟨os, -, hos, hlen, hle, hl⟩ := reads_of_scan hq (by simp)
    rw [List.nil_append] at hos
    subst hos
    obtain ⟨a, b, c, d, rfl⟩ := List.length_eq_four.mp hlen
    simp only [List.forall_mem_cons, List.not_mem_nil, false_implies, implies_true, and_true] at hle
    obtain ⟨ha, hb, hc, hd⟩ := hle
    have hval : ofOctets [a, b, c, d] = 256 * (256 * (256 * a + b) + c) + d := by simp [ofOctets]
    rw [hval]
    refine ⟨by omega, ?_⟩
    have hoct : octets (256 * (256 * (256 * a + b) + c) + d) = [a, b, c, d] := by
      rw [octets]
      congr 1
      · omega
      · congr 1
        · omega
        · congr 1
          · omega
          · congr 1
            omega
    rw [print, hoct]
    exact hl
  · rintro ⟨hn, rfl⟩
    have hle : ∀ o ∈ octets n, o ≤ 255 := by
      simp only [octets, List.forall_mem_cons, List.not_mem_nil, false_implies, implies_true, and_true]
      omega
    have hval : ofOctets (octets n) = n := by
      simp only [ofOctets, octets, List.foldl_cons, List.foldl_nil]
      omega
    rw [parse, print, scan_text rfl (by simp [octets]) hle, Option.map_some, List.nil_append, hval]

end Ltm.DottedQuad

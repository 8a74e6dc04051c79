import Mathlib.Init

/-! # Base64 for URLs

Bytes as numbers below 256, written six bits at a time and without padding.
-/

namespace Finstack.Foundation.Base64

def alphabet : List Char :=
  "ABCDEFGHIJKLMNOPQRSTUVWXYZabcdefghijklmnopqrstuvwxyz0123456789-_".toList

def char (sextet : Nat) : Char := alphabet.getD sextet 'A'

def sextet (c : Char) : Nat := alphabet.idxOf c

def sextets : List Nat → List Nat
  | a :: b :: c :: rest =>
    [a / 4, a % 4 * 16 + b / 16, b % 16 * 4 + c / 64, c % 64] ++ sextets rest
  | [a, b] => [a / 4, a % 4 * 16 + b / 16, b % 16 * 4]
  | [a] => [a / 4, a % 4 * 16]
  | [] => []

/-- Bits that do not fill a byte are dropped. -/
def bytes : List Nat → List Nat
  | s :: t :: u :: v :: rest => [s * 4 + t / 16, t % 16 * 16 + u / 4, u % 4 * 64 + v] ++ bytes rest
  | [s, t, u] => [s * 4 + t / 16, t % 16 * 16 + u / 4]
  | [s, t] => [s * 4 + t / 16]
  | [_] | [] => []

def encode (input : List Nat) : List Char := (sextets input).map char

def decode (text : List Char) : List Nat := bytes (text.map sextet)

variable {input : List Nat}

theorem sextets_lt (small : ∀ b ∈ input, b < 256) : ∀ s ∈ sextets input, s < 64 := by
  induction input using sextets.induct with
  | case1 a b c rest ih =>
    simp only [List.forall_mem_cons] at small
    obtain ⟨ha, hb, hc, others⟩ := small
    simp only [sextets, List.cons_append, List.nil_append, List.forall_mem_cons]
    exact ⟨by omega, by omega, by omega, by omega, ih others⟩
  | case2 a b =>
    simp only [List.forall_mem_cons] at small
    simp only [sextets, List.forall_mem_cons, List.not_mem_nil, false_implies, implies_true, and_true]
    omega
  | case3 a =>
    simp only [List.forall_mem_cons] at small
    simp only [sextets, List.forall_mem_cons, List.not_mem_nil, false_implies, implies_true, and_true]
    omega
  | case4 => simp [sextets]

theorem bytes_sextets (small : ∀ b ∈ input, b < 256) : bytes (sextets input) = input := by
  induction input using sextets.induct with
  | case1 a b c rest ih =>
    simp only [List.forall_mem_cons] at small
    obtain ⟨ha, hb, hc, others⟩ := small
    simp only [sextets, bytes, List.cons_append, List.nil_append, ih others, List.cons.injEq, and_true]
    omega
  | case2 a b =>
    simp only [List.forall_mem_cons] at small
    simp only [sextets, bytes, List.cons.injEq, and_true]
    omega
  | case3 a =>
    simp only [List.forall_mem_cons] at small
    simp only [sextets, bytes, List.cons.injEq, and_true]
    omega
  | case4 => rfl

theorem sextet_char : ∀ s < 64, sextet (char s) = s := by decide

theorem char_mem : ∀ s < 64, char s ∈ alphabet := by decide

theorem mem_alphabet_of_mem_encode (small : ∀ b ∈ input, b < 256) {c : Char} (member : c ∈ encode input) :
    c ∈ alphabet := by
  obtain ⟨s, present, rfl⟩ := List.mem_map.mp member
  exact char_mem s (sextets_lt small s present)

theorem decode_encode (small : ∀ b ∈ input, b < 256) : decode (encode input) = input := by
  have back : (encode input).map sextet = sextets input := by
    rw [encode, List.map_map]
    exact (List.map_congr_left fun s present =>
      sextet_char s (sextets_lt small s present)).trans (List.map_id _)
  rw [decode, back, bytes_sextets small]

end Finstack.Foundation.Base64

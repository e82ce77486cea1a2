/-
  PagedSearch.Proofs.Scanner.Comparisons

  What a search costs. Since its pattern was set, a scanner has compared each
  significant character that it has read with a symbol at least once, and, if
  the pattern has no repetitions, twice on average at most
  (`comparisons_linear`): however long the pattern is, however the text is cut,
  and whatever was found, dropped by a reset or read in the other direction on
  the way. The credit of a partial match that is dropped is lost, so dropping it
  never costs anything (`Metered.perform`).
-/
import Mathlib
import PagedSearch.Proofs.Pattern.Literal
import PagedSearch.Proofs.Scan.Comparisons
import PagedSearch.Proofs.Scanner.Reachable

namespace PagedSearch

namespace Scanner

/-! ## Characters read -/

/-- True of the operations that leave the pattern and its settings but for the direction. -/
def Operation.keepsPattern : Operation → Bool
  | .compile _ => false
  | .configure _ => false
  | .turn _ => true
  | .reset => true
  | .feed _ => true
  | .advance => true

/-- How many significant characters an operation reads. -/
def readBy (s : Scanner) : Operation → Nat
  | .advance => s.pending.length - (s.perform .advance).pending.length
  | _ => 0

/-- The scanner after some operations. -/
def run (s : Scanner) (ops : List Operation) : Scanner := ops.foldl perform s

/-- How many significant characters some operations read. -/
def charactersRead (s : Scanner) : List Operation → Nat
  | [] => 0
  | op :: ops => s.readBy op + (s.perform op).charactersRead ops

/-! ## Comparisons -/

section

variable {s : Scanner} {n : Nat}

/-- A scanner without repetitions that has read `n` characters since its pattern was set. -/
structure Metered (n : Nat) (s : Scanner) : Prop where
  fixed : ∀ chain, s.query.chain = some chain → chain.Fixed
  charged : Scan.Charged n 0 ({} : Scan Place) s.scan

theorem metered_of_query {query : Query}
    (h : ∀ chain, query.chain = some chain → chain.Fixed) : Metered 0 { query } :=
  ⟨h, @Scan.Charged.none Place {} rfl⟩

/-- The partial match is dropped, but not the count of comparisons. -/
theorem Metered.reset (h : Metered n s) : Metered n s.reset := ⟨h.fixed, h.charged.restart⟩

/-- The reversed chain has no repetitions either. -/
theorem Metered.turned (h : Metered n s) (d : Direction) : Metered n (s.turned d) := by
  rw [Scanner.turned]
  by_cases h_d : s.query.settings.direction = d
  · rw [if_pos h_d]
    exact h
  · -- turning drops the partial match, as a reset does
    rw [if_neg h_d]
    refine Metered.reset ⟨?_, h.charged⟩
    show ∀ chain, (s.query.turned d).chain = some chain → chain.Fixed
    rw [Query.turned, if_neg h_d]
    intro chain h_chain
    obtain ⟨other, h_other, rfl⟩ := Option.map_eq_some_iff.1 h_chain
    exact (h.fixed other h_other).reversed

/-- Reading on is paid by the characters that are read. -/
theorem Metered.advance (h : Metered n s) :
    Metered (n + s.readBy .advance) (s.perform .advance) := by
  rw [readBy, perform, advance?]
  cases h_chain : s.query.chain with
  | none =>
    show Metered (n + (s.pending.length - s.pending.length)) s
    rw [Nat.sub_self]
    exact h
  | some chain =>
    obtain ⟨read, h_length, h_read⟩ :=
      Scan.advance_charged (h.fixed chain h_chain) h.charged.taken_eq s.pending
    -- the characters that were read are those that no longer wait
    refine ⟨h.fixed, ?_⟩
    show Scan.Charged (n + (s.pending.length - (s.scan.advance chain s.pending).2.2.length)) 0 {}
      (s.scan.advance chain s.pending).1
    rw [h_length, Nat.add_sub_cancel]
    exact h.charged.trans h_read

theorem Metered.perform (h : Metered n s) {op : Operation} (h_op : op.keepsPattern = true) :
    Metered (n + s.readBy op) (s.perform op) := by
  cases op with
  | compile pattern => exact absurd h_op Bool.false_ne_true
  | configure settings => exact absurd h_op Bool.false_ne_true
  | turn d => exact h.turned d
  | reset => exact h.reset
  | feed fragment => exact ⟨h.fixed, h.charged⟩
  | advance => exact h.advance

theorem Metered.run (h : Metered n s) {ops : List Operation}
    (h_ops : ∀ op ∈ ops, op.keepsPattern = true) :
    Metered (n + s.charactersRead ops) (s.run ops) := by
  induction ops generalizing n s with
  | nil => exact h
  | cons op ops ih =>
    rw [List.forall_mem_cons] at h_ops
    have h_rest := ih (h.perform h_ops.1) h_ops.2
    rw [Nat.add_assoc] at h_rest
    exact h_rest

/-- The chain that a scanner has behind a compilation has no repetitions, if the pattern is literal
    or has none. -/
theorem metered_compile (s : Scanner) (pattern : Text)
    (h : s.query.settings.mode = .wildcard →
      ∀ chain, Chain.compile s.query.settings pattern = .ok chain → chain.Fixed) :
    Metered 0 (s.perform (.compile pattern)) := by
  apply metered_of_query
  intro chain h_chain
  have h_compiled := (Query.compile_compiled s.query pattern).chain_eq_some_iff.1 h_chain
  have h_settings : (s.query.compile pattern).1.settings = s.query.settings := by
    rw [Query.compile]
    split <;> rfl
  have h_pattern : (s.query.compile pattern).1.pattern = pattern := by
    rw [Query.compile]
    split <;> rfl
  rw [h_settings, h_pattern] at h_compiled
  -- a literal pattern spells a word, and no symbol of a word is a repetition
  cases h_mode : s.query.settings.mode with
  | literal => exact (Chain.spells_of_compile h_mode h_compiled).fixed
  | wildcard => exact h h_mode chain h_compiled

end

end Scanner

/-- Since a pattern without repetitions was set, each significant character that was read has cost
    one comparison at least, and two on average at most. -/
theorem comparisons_linear (start : Scanner) (pattern : Text)
    (h_fixed : start.query.settings.mode = .wildcard →
      ∀ chain, Chain.compile start.query.settings pattern = .ok chain → chain.Fixed)
    (ops : List Scanner.Operation) (h_ops : ∀ op ∈ ops, op.keepsPattern = true) :
    (start.perform (.compile pattern)).charactersRead ops ≤
        ((start.perform (.compile pattern)).run ops).comparisons ∧
      ((start.perform (.compile pattern)).run ops).comparisons ≤
        2 * (start.perform (.compile pattern)).charactersRead ops := by
  have h_run := (Scanner.metered_compile start pattern h_fixed).run h_ops
  rw [Nat.zero_add] at h_run
  obtain ⟨-, h_ge, h_le⟩ := h_run.charged
  rw [Nat.zero_add] at h_ge h_le
  exact ⟨h_ge, Nat.le_of_add_right_le h_le⟩

/-- Partial matches that fall back, one that is lost as the direction changes, and one that a reset
    drops. -/
theorem comparisons_linear_turned :
    (((Scanner.new { mode := .wildcard }).perform (.compile "[ab]a[ab]ac".toList)).run
      [.feed "aaa aaac b".toList, .advance, .turn .backward, .feed "cabAa".toList, .advance,
        .feed "ca".toList, .advance, .reset, .feed "aca aa".toList, .advance]).comparisons ≤
      2 * 19 := by
  have h_linear := comparisons_linear (Scanner.new { mode := .wildcard }) "[ab]a[ab]ac".toList
    (fun _ chain h_chain => by
      have h_symbols : Chain.compile { mode := .wildcard } "[ab]a[ab]ac".toList =
          .ok ⟨[.set (.ofList ['a', 'b']), .char 'a', .set (.ofList ['a', 'b']), .char 'a',
            .char 'c'], [0, 0, 1, 1, 2], rfl, rfl, by decide +kernel⟩ := by decide +kernel
      rw [← Except.ok.inj (h_symbols.symm.trans h_chain)]
      decide)
    [.feed "aaa aaac b".toList, .advance, .turn .backward, .feed "cabAa".toList, .advance,
      .feed "ca".toList, .advance, .reset, .feed "aca aa".toList, .advance] (by decide)
  have h_read : ((Scanner.new { mode := .wildcard }).perform
      (.compile "[ab]a[ab]ac".toList)).charactersRead
        [.feed "aaa aaac b".toList, .advance, .turn .backward, .feed "cabAa".toList, .advance,
          .feed "ca".toList, .advance, .reset, .feed "aca aa".toList, .advance] = 19 := by
    decide +kernel
  rw [h_read] at h_linear
  exact h_linear.2

end PagedSearch

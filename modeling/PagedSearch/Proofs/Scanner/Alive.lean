/-
  PagedSearch.Proofs.Scanner.Alive

  The partial match of a literal pattern. It is the longest part alive of what
  was read since the last match, and none is in progress exactly if that part is
  empty (`partialBegin?_longest`).

  What was read is told by what can be seen from outside: it is the stream of
  the fragments without what is still pending, cut behind the last match that was
  reported. Feeding and reading on keep it so (`Traced.feed`, `Traced.advance`),
  and hence a whole run does (`Traced.run`).
-/
import Mathlib
import PagedSearch.Proofs.Pattern.Literal
import PagedSearch.Proofs.Scan.Alive
import PagedSearch.Proofs.Scanner.Comparisons
import PagedSearch.Proofs.Scanner.Stream

namespace PagedSearch

/-! ## Feeding and reading -/

namespace Scanner

/-- The scanners that have just taken a pattern or were just reset. -/
inductive Started : Scanner → Prop where
  | compile {s : Scanner} (pattern : Text) : Reachable s → Started (s.perform (.compile pattern))
  | reset {s : Scanner} : Reachable s → Started (s.perform .reset)

/-- The fragment that an operation feeds. -/
def Operation.fed? : Operation → Option Text
  | .feed fragment => some fragment
  | _ => none

/-- The match that an operation reports. -/
def reported? (s : Scanner) : Operation → Option (Span Place)
  | .advance => s.advance?.bind Prod.snd
  | _ => none

/-- The matches that operations report, one after the other. -/
def reports (s : Scanner) : List Operation → List (Span Place)
  | [] => []
  | op :: ops => (s.reported? op).toList ++ (s.perform op).reports ops

/-- True if operations only feed fragments and read them, each to its end before the next. -/
def readsInTurn (s : Scanner) : List Operation → Bool
  | [] => true
  | .feed fragment :: ops => s.pending.isEmpty && (s.perform (.feed fragment)).readsInTurn ops
  | .advance :: ops => (s.perform .advance).readsInTurn ops
  | _ :: _ => false

/-- What the scan of a query with a literal pattern knows of the characters that were read since the
    last match. -/
inductive Knows (query : Query) (scan : Scan Place) : List (Char × Place) → Prop where
  | tracking {chain seen} : query.chain = some chain →
      chain.Spells (query.settings.word query.pattern) →
      Tracks (query.settings.word query.pattern) seen scan → Knows query scan seen
  /-- Without a compiled pattern nothing is read. -/
  | idle : query.chain = none → scan.window = [] → Knows query scan []

/-- What a scanner with this query has come to that was fed fragments and has reported matches. -/
structure Traced (query : Query) (fragments : List Text) (spans : List (Span Place))
    (s : Scanner) : Prop where
  query_eq : s.query = query
  fed_eq : s.fed = fragments.length
  read : ∃ front seen, query.settings.stream 1 fragments = front ++ seen ++ s.pending ∧
    front.getLast?.map Prod.snd = spans.getLast?.map Span.last ∧ Knows query s.scan seen

section

variable {query : Query} {s : Scanner} {fragments : List Text} {spans : List (Span Place)}

theorem Knows.alive {scan : Scan Place} {seen : List (Char × Place)} (h : Knows query scan seen) :
    ∃ part, Alive (query.settings.word query.pattern) seen part ∧
      scan.window = part.map Prod.snd := by
  cases h with
  | tracking _ _ h_tracks => exact h_tracks.alive
  | idle _ h_window => exact ⟨[], .nil _, h_window⟩

/-- A scanner with a literal pattern that has just started has read nothing. -/
theorem Started.traced (h : s.Started) (h_mode : s.query.settings.mode = .literal) :
    Traced s.query [] [] s := by
  have h_fresh : s.fed = 0 ∧ s.pending = [] ∧ (∃ n, s.scan = { comparisons := n }) ∧
      s.query.Compiled := by
    cases h with
    | compile pattern h_s => exact ⟨rfl, rfl, ⟨0, rfl⟩, (Reachable.step _ h_s).compiled⟩
    | reset h_s => exact ⟨rfl, rfl, ⟨_, rfl⟩, (Reachable.step .reset h_s).compiled⟩
  obtain ⟨h_fed, h_pending, ⟨n, h_scan⟩, h_compiled⟩ := h_fresh
  refine ⟨rfl, h_fed, [], [], by rw [h_pending]; rfl, rfl, ?_⟩
  cases h_chain : s.query.chain with
  | none => exact .idle h_chain (by rw [h_scan])
  | some chain =>
    have h_spells := Chain.spells_of_compile h_mode (h_compiled.chain_eq_some_iff.1 h_chain)
    refine .tracking h_chain h_spells ?_
    rw [h_scan]
    exact .fresh h_spells.length_pos n

/-- What is fed comes behind all that was read. -/
theorem Traced.feed (h : Traced query fragments spans s) (h_pending : s.pending = [])
    (fragment : Text) : Traced query (fragments ++ [fragment]) spans (s.feed fragment) := by
  obtain ⟨rfl, h_fed, front, seen, h_stream, h_front, h_knows⟩ := h
  refine ⟨rfl, ?_, front, seen, ?_, h_front, h_knows⟩
  · rw [List.length_append, ← h_fed]
    rfl
  · show s.query.settings.stream 1 (fragments ++ [fragment]) =
      front ++ seen ++ s.query.settings.significant (s.fed + 1) fragment
    rw [Settings.stream_concat, h_stream, h_pending, List.append_nil, h_fed, Nat.add_comm]

/-- Reading on moves characters from those that are pending to those that were read, and a match
    leaves nothing read behind it. -/
theorem Traced.advance (h : Traced query fragments spans s) :
    Traced query fragments (spans ++ (s.reported? .advance).toList) (s.perform .advance) := by
  obtain ⟨rfl, h_fed, front, seen, h_stream, h_front, h_knows⟩ := h
  rw [reported?, perform, advance?]
  cases h_knows with
  | idle h_chain h_window =>
    rw [h_chain, Option.map_none, Option.bind_none, Option.toList_none, List.append_nil]
    exact ⟨rfl, h_fed, front, [], h_stream, h_front, .idle h_chain h_window⟩
  | @tracking chain _ h_chain h_spells h_tracks =>
    have h_advanced := advance_tracks h_spells h_tracks s.pending
    rw [h_chain, Option.map_some, Option.bind_some]
    rcases h_result : s.scan.advance chain s.pending with ⟨scan, _ | span, rest⟩
    · rw [h_result] at h_advanced
      obtain ⟨rfl, h_next⟩ := h_advanced
      simp only [Option.toList_none, List.append_nil]
      refine ⟨rfl, h_fed, front, seen ++ s.pending, ?_, h_front, .tracking h_chain h_spells h_next⟩
      rw [List.append_nil, ← List.append_assoc]
      exact h_stream
    · rw [h_result] at h_advanced
      obtain ⟨h_next, read, h_pending, h_last⟩ := h_advanced
      simp only [Option.toList_some]
      refine ⟨rfl, h_fed, front ++ (seen ++ read), [], ?_, ?_, .tracking h_chain h_spells h_next⟩
      · rw [h_stream, h_pending]
        simp only [List.append_assoc, List.append_nil]
      · -- the last character read is the one that the match ends with
        rw [List.getLast?_concat]
        exact getLast?_append_map h_last

/-- A run that feeds and reads in turn keeps account of all that was fed and reported. -/
theorem Traced.run (h : Traced query fragments spans s) {ops : List Operation}
    (h_ops : s.readsInTurn ops = true) :
    Traced query (fragments ++ ops.filterMap Operation.fed?) (spans ++ s.reports ops)
      (s.run ops) := by
  induction ops generalizing s fragments spans with
  | nil =>
    rw [List.filterMap_nil, reports, List.append_nil, List.append_nil]
    exact h
  | cons op ops ih =>
    cases op with
    | feed fragment =>
      rw [readsInTurn, Bool.and_eq_true, List.isEmpty_iff] at h_ops
      have h_run := ih (h.feed h_ops.1 fragment) h_ops.2
      rw [List.append_assoc] at h_run
      exact h_run
    | advance =>
      have h_run := ih h.advance h_ops
      rw [List.append_assoc] at h_run
      exact h_run
    | compile _ | configure _ | turn _ | reset => exact absurd h_ops Bool.false_ne_true

end

end Scanner

/-- While a scanner with a literal pattern is fed and read, each fragment to its end before the
    next, the stream of the fragments is what was read up to the last match, what was read since
    and what is pending. The partial match is the longest part alive of what was read since the
    last match: it begins where that part does, and there is none exactly if that part is empty. -/
theorem partialBegin?_longest (start : Scanner) (h_start : start.Started)
    (h_mode : start.query.settings.mode = .literal) (ops : List Scanner.Operation)
    (h_ops : start.readsInTurn ops = true) :
    ∃ front seen part,
      start.query.settings.stream 1 (ops.filterMap Scanner.Operation.fed?) =
        front ++ seen ++ (start.run ops).pending ∧
      front.getLast?.map Prod.snd = (start.reports ops).getLast?.map Span.last ∧
      Alive (start.query.settings.word start.query.pattern) seen part ∧
      (start.run ops).partialBegin? = part.head?.map Prod.snd ∧
      ((start.run ops).partialBegin? = none ↔ part = []) := by
  obtain ⟨-, -, front, seen, h_stream, h_front, h_knows⟩ := (h_start.traced h_mode).run h_ops
  obtain ⟨part, h_alive, h_window⟩ := h_knows.alive
  have h_begin : (start.run ops).partialBegin? = part.head?.map Prod.snd := by
    rw [Scanner.partialBegin?, h_window, List.head?_map]
  refine ⟨front, seen, part, h_stream, h_front, h_alive, h_begin, ?_⟩
  rw [h_begin, Option.map_eq_none_iff, List.head?_eq_none_iff]

/-- Behind a match that ends inside a fragment, a partial match of five characters falls back to one
    of three, over cuts, a blank and a hyphen. -/
theorem partialBegin?_longest_aabaaa :
    ∃ front seen part,
      Settings.stream { hyphenTolerant := true } 1
        ["aabAaa a".toList, "ab-a".toList, "A b".toList] = front ++ seen ∧
      front.getLast?.map Prod.snd = some ⟨1, 5⟩ ∧ Alive "aabaaa".toList seen part ∧
      part.head?.map Prod.snd = some ⟨2, 3⟩ := by
  obtain ⟨front, seen, part, h_stream, h_front, h_alive, h_begin, -⟩ := partialBegin?_longest
    ((Scanner.new { hyphenTolerant := true }).perform (.compile "aAba-aa".toList))
    (.compile _ (.new _)) (by decide +kernel)
    [.feed "aabAaa a".toList, .advance, .advance, .feed "ab-a".toList, .advance,
      .feed "A b".toList, .advance] (by decide +kernel)
  refine ⟨front, seen, part, (Eq.trans ?_ h_stream).trans ?_, h_front.trans ?_,
    Eq.subst (motive := fun w => Alive w seen part) ?_ h_alive, h_begin.symm.trans ?_⟩
  · decide +kernel
  · -- all that was fed has been read
    exact List.append_right_eq_self.2 (by decide +kernel)
  · decide +kernel
  · decide +kernel
  · decide +kernel

end PagedSearch

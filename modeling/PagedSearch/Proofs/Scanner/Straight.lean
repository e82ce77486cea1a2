/-
  PagedSearch.Proofs.Scanner.Straight

  A scanner in the middle of its work: part of a fragment may still be read,
  and more fragments come (`readOn?`). Whatever was done to the scanner, its
  scan is one that steps of its chain lead to (`Serving.scans`). So
  without a partial match the next thing it reports is what the symbols read
  possessively in front of the rest, however the rest is cut
  (`readOn?_possessive`).
-/
import PagedSearch.Proofs.Scan.Straight
import PagedSearch.Proofs.Scanner.Reachable
import PagedSearch.Proofs.Scanner.Stream

namespace PagedSearch

namespace Scanner

variable {s : Scanner} {chain : Chain}

/-! ## Reading on -/

/-- Reads the rest of its fragment, and then is fed fragments, each of which is read before the
    next one comes. -/
def readOn? (s : Scanner) (fragments : List Text) : Option (Scanner × List (Span Place)) :=
  match s.exhaust? with
  | none => none
  | some (next, spans) => (next.readAll? fragments).map fun (last, more) => (last, spans ++ more)

/-- What is still to be read is one stream. -/
theorem readOn?_eq_drain (h_chain : s.query.chain = some chain) (fragments : List Text) :
    ∃ last, s.readOn? fragments = some (last, (s.scan.drain chain
      (s.pending ++ s.query.settings.stream (s.fed + 1) fragments)).2) := by
  obtain ⟨last, h_last⟩ := @readAll?_eq_drain
    { s with scan := (s.scan.drain chain s.pending).1, pending := [] } chain h_chain fragments
  have h_fragment : s.exhaust? = some
      ({ s with scan := (s.scan.drain chain s.pending).1, pending := [] },
        (s.scan.drain chain s.pending).2) := by
    rw [exhaust?_eq_drain?, drain?, h_chain]
    rfl
  refine ⟨last, ?_⟩
  rw [readOn?, h_fragment, Scan.drain_append]
  show (readAll? _ fragments).map _ = _
  rw [h_last]
  rfl

/-! ## Scanners at work -/

/-- The scanners that come of operations on one that starts with any query. -/
inductive Serving : Scanner → Prop where
  | start (query : Query) : Serving { query }
  | step {s : Scanner} (op : Operation) : Serving s → Serving (s.perform op)

/-- The scan has come of steps of the chain there is now. -/
def Scans (s : Scanner) : Prop :=
  ∀ chain, s.query.chain = some chain → s.scan.Reachable chain

theorem scans_of_fresh (h : ∃ comparisons, s.scan = { comparisons }) : s.Scans := by
  intro chain _
  obtain ⟨comparisons, h_scan⟩ := h
  rw [h_scan]
  exact .fresh comparisons

theorem Scans.withSettings (h : s.Scans) (settings : Settings) :
    (s.withSettings settings).1.Scans := by
  rw [Scanner.withSettings]
  by_cases h_rereads : s.query.rereads settings = true
  · simp only [if_pos h_rereads]
    exact scans_of_fresh ⟨0, rfl⟩
  · -- the pattern is not read again, and its chain stays
    simp only [if_neg h_rereads, Query.withSettings]
    exact h

theorem Scans.turned (h : s.Scans) (d : Direction) : (s.turned d).Scans := by
  rw [Scanner.turned]
  by_cases h_d : s.query.settings.direction = d
  · rw [if_pos h_d]
    exact h
  · rw [if_neg h_d]
    exact scans_of_fresh ⟨_, rfl⟩

theorem Scans.advance? (h : s.Scans) {next : Scanner} {span : Option (Span Place)}
    (h_next : s.advance? = some (next, span)) : next.Scans := by
  rw [Scanner.advance?, Option.map_eq_some_iff] at h_next
  obtain ⟨chain, h_chain, h_eq⟩ := h_next
  rw [← (Prod.mk.inj h_eq).1]
  intro chain' h_chain'
  obtain rfl : chain = chain' := Option.some.inj (h_chain.symm.trans h_chain')
  exact (h chain h_chain).advance s.pending

/-- An operation keeps the scan with its chain. -/
theorem Scans.perform (h : s.Scans) (op : Operation) : (s.perform op).Scans := by
  cases op with
  | compile pattern => exact scans_of_fresh ⟨0, rfl⟩
  | configure settings => exact h.withSettings settings
  | turn d => exact h.turned d
  | reset => exact scans_of_fresh ⟨_, rfl⟩
  | feed fragment => exact h
  | advance =>
    rw [Scanner.perform]
    split
    · rename_i h_advance
      exact h.advance? h_advance
    · exact h

theorem Serving.scans (h : s.Serving) : s.Scans := by
  induction h with
  | start query => exact scans_of_fresh ⟨0, rfl⟩
  | step op _ ih => exact ih.perform op

end Scanner

/-- Without a partial match, whatever was done before, the next match reported is the part in
    front of the rest that the symbols read possessively, however it is cut into fragments. -/
theorem readOn?_possessive (symbols : List Symbol) (chain : Chain)
    (h_chain : Chain.ofSymbols? symbols = .ok chain) (s : Scanner) (h_serving : s.Serving)
    (h_query : s.query.chain = some chain) (h_clean : s.partialBegin? = none)
    (fragments : List Text) (w rest : List (Char × Place))
    (h_rest : s.pending ++ s.query.settings.stream (s.fed + 1) fragments = w ++ rest)
    (h_reads : readPossessively symbols (w.map Prod.fst) = some []) :
    ∃ last span spans, s.readOn? fragments = some (last, span :: spans) ∧ span.Delimits w := by
  have h_window : s.scan.window = [] := List.head?_eq_none_iff.1 h_clean
  rw [← Chain.symbols_of_ofSymbols? h_chain] at h_reads
  obtain ⟨span, spans, h_drain, h_span⟩ :=
    (h_serving.scans chain h_query).drain_first h_window h_reads rest
  obtain ⟨last, h_last⟩ := Scanner.readOn?_eq_drain h_query fragments
  rw [h_rest, h_drain] at h_last
  exact ⟨last, span, spans, h_last, h_span⟩

/-- Behind a match that ends inside a fragment: a run over cuts and blanks, and a repetition
    passed as empty. -/
theorem readOn?_possessive_abbc :
    ∃ last span spans,
      ((((Scanner.new { mode := .wildcard }).perform (.compile "aB*x*c".toList)).perform
        (.feed "abac a".toList)).perform .advance).readOn?
        [" b".toList, [], "B cab".toList] = some (last, span :: spans) ∧
      span.Delimits [('a', ⟨1, 5⟩), ('b', ⟨2, 1⟩), ('b', ⟨4, 0⟩), ('c', ⟨4, 2⟩)] := by
  refine readOn?_possessive [.char 'a', .many (.char 'b'), .many (.char 'x'), .char 'c']
    ⟨[.char 'a', .many (.char 'b'), .many (.char 'x'), .char 'c'], [0, 0, 0, 0], rfl, rfl,
      by decide +kernel⟩ (by decide +kernel) _ (.step _ (.step _ (.step _ (.start _)))) ?_ ?_ _ _
      [('a', ⟨4, 3⟩), ('b', ⟨4, 4⟩)] ?_ ?_
  · cbv
  · cbv
  · cbv
  · cbv

end PagedSearch

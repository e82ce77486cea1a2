/-
  PagedSearch.Proofs.Scanner.Stream

  A scanner that is fed fragments reads one stream: the significant
  characters of all fragments with their places. Asking for matches until a
  fragment is read (`exhaust?`), fragment by fragment (`readAll?`), gives
  what one scan of the stream gives (`readAll?_eq_drain`): the cuts between
  fragments leave no trace but in the places.
-/
import PagedSearch.Scanner

namespace PagedSearch

/-! ## Asking for matches -/

namespace Scan

variable {α : Type} {chain : Chain} {scan next : Scan α} {t rest : List (Char × α)}

theorem drain_of_advance_none (h : scan.advance chain t = (next, none, rest)) :
    rest = [] ∧ scan.drain chain t = (next, []) := by
  induction t generalizing scan with
  | nil =>
    rw [advance, Prod.mk.injEq, Prod.mk.injEq] at h
    rw [drain_nil, h.1]
    exact ⟨h.2.2.symm, rfl⟩
  | cons head t ih =>
    obtain ⟨c, here⟩ := head
    rw [advance] at h
    rw [drain]
    rcases h_step : scan.step chain c here with ⟨after, _ | found⟩
    · rw [h_step] at h
      obtain ⟨h_rest, h_drain⟩ := ih h
      refine ⟨h_rest, ?_⟩
      simp only [h_drain, Option.toList_none, List.nil_append]
    · simp [h_step] at h

theorem drain_of_advance_some {span : Span α} (h : scan.advance chain t = (next, some span, rest)) :
    rest.length < t.length ∧ scan.drain chain t =
      ((next.drain chain rest).1, span :: (next.drain chain rest).2) := by
  induction t generalizing scan with
  | nil => simp [advance] at h
  | cons head t ih =>
    obtain ⟨c, here⟩ := head
    rw [advance] at h
    rw [drain]
    rcases h_step : scan.step chain c here with ⟨after, _ | found⟩
    · rw [h_step] at h
      obtain ⟨h_lt, h_drain⟩ := ih h
      refine ⟨Nat.lt_succ_of_lt h_lt, ?_⟩
      simp only [h_drain, Option.toList_none, List.nil_append]
    · rw [h_step] at h
      obtain ⟨rfl, h_span, rfl⟩ : after = next ∧ some found = some span ∧ t = rest := by
        simpa using h
      rw [← Option.some.inj h_span]
      exact ⟨Nat.lt_succ_self _, rfl⟩

end Scan

namespace Scanner

/-- Asking for a match leaves less to read if there is one. -/
theorem pending_lt_of_advance? {s next : Scanner} {span : Span Place}
    (h : s.advance? = some (next, some span)) : next.pending.length < s.pending.length := by
  rw [advance?, Option.map_eq_some_iff] at h
  obtain ⟨chain, -, h_eq⟩ := h
  rcases h_advance : s.scan.advance chain s.pending with ⟨scan, _ | found, rest⟩
  · simp [h_advance] at h_eq
  · rw [h_advance] at h_eq
    have h_next := (Prod.mk.inj h_eq).1
    rw [← h_next]
    exact (Scan.drain_of_advance_some h_advance).1

/-- Asks for matches until the fragment is read. -/
def exhaust? (s : Scanner) : Option (Scanner × List (Span Place)) :=
  match _h : s.advance? with
  | none => none
  | some (next, none) => some (next, [])
  | some (next, some span) => next.exhaust?.map fun (last, spans) => (last, span :: spans)
termination_by s.pending.length
decreasing_by exact pending_lt_of_advance? _h

section

variable {s next : Scanner} {span : Span Place}

theorem exhaust?_none (h : s.advance? = none) : s.exhaust? = none := by
  rw [exhaust?]
  split <;> simp_all

theorem exhaust?_last (h : s.advance? = some (next, none)) : s.exhaust? = some (next, []) := by
  rw [exhaust?]
  split <;> simp_all

theorem exhaust?_more (h : s.advance? = some (next, some span)) :
    s.exhaust? = next.exhaust?.map fun (last, spans) => (last, span :: spans) := by
  rw [exhaust?]
  split <;> simp_all

end

/-- Asking again and again reads the rest of the fragment in one go. -/
theorem exhaust?_eq_drain? (s : Scanner) : s.exhaust? = s.drain? := by
  induction h_n : s.pending.length using Nat.strongRecOn generalizing s with
  | ind n ih =>
    cases h_chain : s.query.chain with
    | none =>
      have h_none : s.advance? = none := by rw [advance?, h_chain, Option.map_none]
      rw [exhaust?_none h_none, drain?, h_chain, Option.map_none]
    | some chain =>
      rcases h_advance : s.scan.advance chain s.pending with ⟨scan, _ | span, rest⟩
      · obtain ⟨h_rest, h_drain⟩ := Scan.drain_of_advance_none h_advance
        have h_last : s.advance? = some ({ s with scan, pending := rest }, none) := by
          rw [advance?, h_chain, Option.map_some, h_advance]
        rw [exhaust?_last h_last, drain?, h_chain, Option.map_some, h_drain, h_rest]
      · obtain ⟨h_lt, h_drain⟩ := Scan.drain_of_advance_some h_advance
        have h_more : s.advance? = some ({ s with scan, pending := rest }, some span) := by
          rw [advance?, h_chain, Option.map_some, h_advance]
        rw [exhaust?_more h_more, ih _ (h_n ▸ h_lt) _ rfl]
        simp only [drain?, h_chain, Option.map_some, h_drain]

/-! ## Fragments and the stream -/

/-- Is fed fragments, each of which is read before the next one comes. -/
def readAll? (s : Scanner) : List Text → Option (Scanner × List (Span Place))
  | [] => some (s, [])
  | fragment :: fragments =>
    match (s.feed fragment).exhaust? with
    | none => none
    | some (next, spans) => (next.readAll? fragments).map fun (last, more) => (last, spans ++ more)

end Scanner

/-- The significant characters of fragments with their places, the first fragment having
    number `n`. -/
def Settings.stream (s : Settings) (n : Nat) (fragments : List Text) : List (Char × Place) :=
  (fragments.zipIdx n).flatMap fun (fragment, number) => s.significant number fragment

theorem Settings.stream_cons (s : Settings) (n : Nat) (fragment : Text) (fragments : List Text) :
    s.stream n (fragment :: fragments) =
      s.significant n fragment ++ s.stream (n + 1) fragments := by
  rw [stream, List.zipIdx_cons, List.flatMap_cons]
  rfl

theorem Settings.stream_concat (s : Settings) (n : Nat) (fragments : List Text) (fragment : Text) :
    s.stream n (fragments ++ [fragment]) =
      s.stream n fragments ++ s.significant (n + fragments.length) fragment := by
  rw [stream, List.zipIdx_append, List.flatMap_append, List.zipIdx_singleton,
    List.flatMap_singleton]
  rfl

namespace Scanner

/-- Fragments are read as one stream. -/
theorem readAll?_eq_drain {s : Scanner} {chain : Chain} (h_chain : s.query.chain = some chain)
    (fragments : List Text) :
    ∃ last, s.readAll? fragments =
      some (last, (s.scan.drain chain (s.query.settings.stream (s.fed + 1) fragments)).2) := by
  induction fragments generalizing s with
  | nil => exact ⟨s, rfl⟩
  | cons fragment fragments ih =>
    obtain ⟨last, h_last⟩ := @ih { s with
      fed := s.fed + 1
      scan := (s.scan.drain chain (s.query.settings.significant (s.fed + 1) fragment)).1
      pending := [] } h_chain
    refine ⟨last, ?_⟩
    -- the first fragment leaves the scan where the stream goes on
    have h_fed : (s.feed fragment).exhaust? = some ({ s with
        fed := s.fed + 1
        scan := (s.scan.drain chain (s.query.settings.significant (s.fed + 1) fragment)).1
        pending := [] },
        (s.scan.drain chain (s.query.settings.significant (s.fed + 1) fragment)).2) := by
      rw [exhaust?_eq_drain?, drain?]
      show s.query.chain.map _ = _
      rw [h_chain]
      rfl
    rw [readAll?, h_fed]
    show (readAll? _ fragments).map _ = _
    rw [h_last, Settings.stream_cons, Scan.drain_append]
    rfl

end Scanner

end PagedSearch

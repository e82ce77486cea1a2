/-
  PagedSearch.Proofs.Scanner.Ordinals

  Only significant characters matter to a search. A run over characters with
  places is a run over the same characters numbered from zero with the numbers
  turned into places (`drain_ordinals`). So two scanners that are fed the same
  significant characters find the same number of matches, with the same
  ordinals among these characters (`readAll?_ordinals`), wherever the
  fragments are cut and whatever is skipped in between.
-/
import Mathlib.Data.List.Forall2
import PagedSearch.Proofs.Pattern.Literal
import PagedSearch.Proofs.Scan.Resumption
import PagedSearch.Proofs.Scanner.Matches

namespace PagedSearch

variable {α : Type}

/-! ## Ordinals -/

/-- The places of a span are those of the characters with these ordinals, counted from zero. -/
structure Span.At (s : List (Char × α)) (ordinals : Span Nat) (span : Span α) : Prop where
  first_eq : (s.map Prod.snd)[ordinals.first]? = some span.first
  last_eq : (s.map Prod.snd)[ordinals.last]? = some span.last

/-- Where no place comes twice, a span has one pair of ordinals. -/
theorem Span.At.unique {s : List (Char × α)} {ordinals other : Span Nat} {span : Span α}
    (h_nodup : (s.map Prod.snd).Nodup) (h : Span.At s ordinals span)
    (h_other : Span.At s other span) : ordinals = other := by
  obtain ⟨h_first_lt, -⟩ := List.getElem?_eq_some_iff.1 h.first_eq
  obtain ⟨h_last_lt, -⟩ := List.getElem?_eq_some_iff.1 h.last_eq
  have h_first := h.first_eq.trans h_other.first_eq.symm
  have h_last := h.last_eq.trans h_other.last_eq.symm
  cases ordinals
  cases other
  rw [Span.mk.injEq]
  exact ⟨(List.getElem?_inj h_first_lt h_nodup).1 h_first,
    (List.getElem?_inj h_last_lt h_nodup).1 h_last⟩

/-- A list is its characters with the places that it has for their numbers. -/
theorem map_some_eq (s : List (Char × α)) :
    s.map (fun x => (x.1, some x.2)) =
      (s.map Prod.fst).zipIdx.map fun x => (x.1, (s.map Prod.snd)[x.2]?) := by
  apply List.ext_getElem
  · rw [List.length_map, List.length_map, List.length_zipIdx, List.length_map]
  · intro i h_i _
    rw [List.length_map] at h_i
    simp [h_i]

/-- A run numbers the characters, and puts their places for the numbers in the end. -/
theorem Scan.drain_ordinals (chain : Chain) (s : List (Char × α)) :
    List.Forall₂ (Span.At s) (({} : Scan Nat).drain chain (s.map Prod.fst).zipIdx).2
      (({} : Scan α).drain chain s).2 := by
  have h_places := @drain_fresh_moved α (Option α) chain some s
  have h_numbers := @drain_fresh_moved Nat (Option α) chain
    (fun i => (s.map Prod.snd)[i]?) (s.map Prod.fst).zipIdx
  rw [← map_some_eq] at h_numbers
  -- both are the spans of the run over the places as options
  have h_spans : (({} : Scan Nat).drain chain (s.map Prod.fst).zipIdx).2.map
      (Span.map fun i => (s.map Prod.snd)[i]?) =
      (({} : Scan α).drain chain s).2.map (Span.map some) := h_numbers.symm.trans h_places
  rw [← List.forall₂_eq_eq_eq, List.forall₂_map_left_iff, List.forall₂_map_right_iff] at h_spans
  apply h_spans.imp
  intro ordinals span h_eq
  rw [Span.map, Span.map, Span.mk.injEq] at h_eq
  exact ⟨h_eq.1, h_eq.2⟩

/-! ## Streams -/

theorem stream_nodup (s : Settings) (n : Nat) (fragments : List Text) :
    ((s.stream n fragments).map Prod.snd).Nodup := by
  rw [List.Nodup, List.pairwise_map]
  apply (stream_pairwise s n fragments).imp
  intro x y h_before h_eq
  rw [Place.Before, h_eq] at h_before
  omega

/-- A scanner for a pattern that compiles reads fragments as one scan of their stream. -/
theorem Scanner.exists_readAll?_compile {settings : Settings} {pattern : Text}
    (h_compiles : ((Scanner.new settings).compile pattern).2 = none) :
    ∃ chain, ∀ fragments, ∃ last,
      ((Scanner.new settings).compile pattern).1.readAll? fragments =
        some (last, (({} : Scan Place).drain chain (settings.stream 1 fragments)).2) := by
  cases h_chain : Chain.compile settings pattern with
  | error e =>
    rw [Scanner.compile, Scanner.new, Query.compile, h_chain] at h_compiles
    exact absurd h_compiles (by simp)
  | ok chain =>
    have h_scanner : ((Scanner.new settings).compile pattern).1 =
        { query := { settings, pattern, chain := some chain } } := by
      rw [Scanner.compile, Scanner.new, Query.compile, h_chain]
    rw [h_scanner]
    exact ⟨chain, fun fragments => @Scanner.readAll?_eq_drain
      { query := { settings, pattern, chain := some chain } } chain rfl fragments⟩

/-- Two scanners for a pattern that are fed the same significant characters, however these are cut
    into fragments and whatever is skipped between them, find equally many matches, and their
    matches begin and end at the same ordinals of these characters. -/
theorem readAll?_ordinals (settings : Settings) (pattern : Text) (fragments fragments' : List Text)
    (h_compiles : ((Scanner.new settings).compile pattern).2 = none)
    (h_same : fragments.flatMap settings.word = fragments'.flatMap settings.word) :
    ∃ last spans last' spans',
      ((Scanner.new settings).compile pattern).1.readAll? fragments = some (last, spans) ∧
      ((Scanner.new settings).compile pattern).1.readAll? fragments' = some (last', spans') ∧
      spans.length = spans'.length ∧
      ∃! ordinals : List (Span Nat),
        List.Forall₂ (Span.At (settings.stream 1 fragments)) ordinals spans ∧
        List.Forall₂ (Span.At (settings.stream 1 fragments')) ordinals spans' := by
  obtain ⟨chain, h_reads⟩ := Scanner.exists_readAll?_compile h_compiles
  obtain ⟨last, h_last⟩ := h_reads fragments
  obtain ⟨last', h_last'⟩ := h_reads fragments'
  have h_spans := Scan.drain_ordinals chain (settings.stream 1 fragments)
  have h_spans' := Scan.drain_ordinals chain (settings.stream 1 fragments')
  -- both runs go over the same numbered characters
  rw [stream_map_fst] at h_spans h_spans'
  rw [← h_same] at h_spans'
  refine ⟨last, _, last', _, h_last, h_last', ?_, _, ⟨h_spans, h_spans'⟩, ?_⟩
  · exact h_spans.length_eq.symm.trans h_spans'.length_eq
  · rintro other ⟨h_other, -⟩
    apply List.left_unique_forall₂' _ h_other h_spans
    intro ordinals ordinals' span h_at h_at'
    exact h_at.unique (stream_nodup settings 1 fragments) h_at'

/-- A repetition that runs on over a cut, a blank, a hyphen and letters of either case. -/
theorem readAll?_ordinals_abbc :
    ∃ last spans last' spans',
      ((Scanner.new { mode := .wildcard, hyphenTolerant := true }).compile
          "ab*.".toList).1.readAll? ["xa".toList, "B- ".toList, [], "bcab".toList] =
        some (last, spans) ∧
      ((Scanner.new { mode := .wildcard, hyphenTolerant := true }).compile
          "ab*.".toList).1.readAll? ["x-AbbC a".toList, "B".toList] = some (last', spans') ∧
      spans.length = spans'.length ∧
      ∃! ordinals : List (Span Nat),
        List.Forall₂ (Span.At (Settings.stream { mode := .wildcard, hyphenTolerant := true } 1
          ["xa".toList, "B- ".toList, [], "bcab".toList])) ordinals spans ∧
        List.Forall₂ (Span.At (Settings.stream { mode := .wildcard, hyphenTolerant := true } 1
          ["x-AbbC a".toList, "B".toList])) ordinals spans' :=
  readAll?_ordinals _ _ _ _ (by decide +kernel) (by decide +kernel)

end PagedSearch

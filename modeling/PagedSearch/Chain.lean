/-
  PagedSearch.Chain

  A compiled pattern: its symbols in order and, for every state, the state
  that a failed partial match falls back to.

  State `k` has matched the first `k` symbols and waits for symbol `k`. Its
  link is a shorter prefix of the symbols that covers the end of what was
  matched, meant to be the longest one. The links are built front to back: the
  link of the next state is found by climbing down from the link of the last
  one (`linkBehind`) until a symbol covers the symbol matched in between.
  Links go down (`link_lt`), so climbing ends.
-/
import PagedSearch.Symbol
import PagedSearch.Pattern.Error

namespace PagedSearch

/-! ## Links -/

/-- The link of the state behind `σ` when the state before `σ` has link `k`: the longest prefix
    on the way down from `k` that `σ` prolongs. -/
def linkBehind (symbols : List Symbol) (links : List Nat) (σ : Symbol) (k : Nat) : Nat :=
  if symbols[k]?.any (·.covers σ) then k + 1
  else if _h : links.getD k 0 < k then linkBehind symbols links σ (links.getD k 0)
  else 0
termination_by k

/-- Appends the links of the states behind each symbol of a list. -/
def appendLinks (symbols : List Symbol) : List Symbol → List Nat → List Nat
  | [], links => links
  | σ :: rest, links =>
    appendLinks symbols rest (links ++ [linkBehind symbols links σ (links.getLastD 0)])

/-- The link of every state of a chain of symbols. The root falls back to itself, and so does
    the state behind it to the root. -/
def linksOf : List Symbol → List Nat
  | [] => []
  | [_] => [0]
  | first :: rest => appendLinks (first :: rest) rest.dropLast [0, 0]

theorem linkBehind_le (symbols : List Symbol) (links : List Nat) (σ : Symbol) (k : Nat) :
    linkBehind symbols links σ k ≤ k + 1 := by
  fun_induction linkBehind symbols links σ k <;> omega

theorem appendLinks_length (symbols rest : List Symbol) (links : List Nat) :
    (appendLinks symbols rest links).length = links.length + rest.length := by
  induction rest generalizing links with
  | nil => simp [appendLinks]
  | cons σ rest ih => simp only [appendLinks, ih, List.length_append, List.length_cons,
      List.length_nil]; omega

@[simp] theorem linksOf_length (symbols : List Symbol) :
    (linksOf symbols).length = symbols.length := by
  unfold linksOf
  split
  · rfl
  · rfl
  · rename_i first rest h_ne
    have h_pos : rest ≠ [] := by rintro rfl; exact h_ne rfl
    have h_len := List.length_pos_iff.2 h_pos
    simp only [appendLinks_length, List.length_cons, List.length_nil, List.length_dropLast]
    omega

/-- Appending keeps the links going down. -/
theorem appendLinks_getD_lt {symbols rest : List Symbol} {links : List Nat}
    (h_len : 2 ≤ links.length) (h_lt : ∀ k, 0 < k → links.getD k 0 < k) {k : Nat} (h_k : 0 < k) :
    (appendLinks symbols rest links).getD k 0 < k := by
  induction rest generalizing links with
  | nil => exact h_lt k h_k
  | cons σ rest ih =>
    -- the longer list goes down as well
    refine ih (by simp only [List.length_append, List.length_cons, List.length_nil]; omega) ?_
    intro j h_j
    have h_le := linkBehind_le symbols links σ (links.getLastD 0)
    have h_last := h_lt (links.length - 1) (by omega)
    have h_old := h_lt j h_j
    simp only [List.getD_eq_getElem?_getD, List.getLastD_eq_getLast?, List.getLast?_eq_getElem?,
      List.getElem?_append] at h_le h_last h_old ⊢
    split
    · exact h_old
    · rename_i h_ge
      rcases Nat.lt_or_eq_of_le (Nat.not_lt.1 h_ge) with h | h
      · rw [List.getElem?_eq_none (by simp only [List.length_cons, List.length_nil]; omega)]
        exact h_j
      · -- the new link is at most one more than the link before it
        subst h
        simp only [Nat.sub_self, List.getElem?_cons_zero, Option.getD_some]
        omega

theorem linksOf_getD_lt (symbols : List Symbol) {k : Nat} (h_k : 0 < k) :
    (linksOf symbols).getD k 0 < k := by
  unfold linksOf
  split
  · simpa using h_k
  · cases k with
    | zero => exact h_k
    | succ k => simp
  · refine appendLinks_getD_lt (Nat.le_refl _) ?_ h_k
    intro j h_j
    match j with
    | 1 => simp
    | j + 2 => simp

/-! ## Chains -/

/-- A compiled pattern. It has a symbol, and neither its first nor its last one is a
    repetition. -/
structure Chain where
  symbols : List Symbol
  links : List Nat
  head_fixed : symbols.head?.any (!·.isMany) = true
  last_fixed : symbols.getLast?.any (!·.isMany) = true
  links_eq : links = linksOf symbols
deriving DecidableEq, Repr

namespace Chain

/-- The chain of a list of symbols. -/
def ofSymbols? (symbols : List Symbol) : Except PatternError Chain :=
  if symbols = [] then .error .empty
  else if h : symbols.head?.any (!·.isMany) ∧ symbols.getLast?.any (!·.isMany) then
    .ok ⟨symbols, linksOf symbols, h.1, h.2, rfl⟩
  else .error .repetitionAtEdge

/-- The chain that accepts the same texts read from right to left. -/
def reversed (chain : Chain) : Chain where
  symbols := chain.symbols.reverse
  links := linksOf chain.symbols.reverse
  head_fixed := by simpa using chain.last_fixed
  last_fixed := by simpa using chain.head_fixed
  links_eq := rfl

/-- How many states a chain has. -/
def size (chain : Chain) : Nat := chain.symbols.length

/-- The state that a partial match of `k` symbols falls back to. -/
def link (chain : Chain) (k : Nat) : Nat := chain.links.getD k 0

/-- True when every state takes one fixed character. -/
def isLiteral (chain : Chain) : Bool := chain.symbols.all Symbol.isChar

/-- True when state `k` takes the character. -/
def accepts (chain : Chain) (k : Nat) (c : Char) : Bool :=
  chain.symbols[k]?.any (·.accepts c)

/-- True when state `k` is a repetition. -/
def isMany (chain : Chain) (k : Nat) : Bool :=
  chain.symbols[k]?.any (·.isMany)

theorem ext_symbols {a b : Chain} (h : a.symbols = b.symbols) : a = b := by
  obtain ⟨s, l, _, _, h_l⟩ := a
  obtain ⟨s', l', _, _, h_l'⟩ := b
  simp only at h
  subst h h_l h_l'
  rfl

@[simp] theorem reversed_symbols (chain : Chain) :
    chain.reversed.symbols = chain.symbols.reverse := rfl

@[simp] theorem reversed_reversed (chain : Chain) : chain.reversed.reversed = chain :=
  ext_symbols (by simp)

@[simp] theorem links_length (chain : Chain) : chain.links.length = chain.size := by
  rw [chain.links_eq, linksOf_length, size]

theorem size_pos (chain : Chain) : 0 < chain.size := by
  have h := chain.head_fixed
  unfold size
  cases h_s : chain.symbols with
  | nil => simp [h_s] at h
  | cons => simp

/-- Links go down. -/
theorem link_lt (chain : Chain) {k : Nat} (h_k : 0 < k) : chain.link k < k := by
  rw [link, chain.links_eq]
  exact linksOf_getD_lt _ h_k

end Chain

end PagedSearch

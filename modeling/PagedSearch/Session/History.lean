/-
  PagedSearch.Session.History

  What a session has done, line by line. Only the most recent lines are kept,
  as many as the limit allows (`record_length_le`).
-/
import PagedSearch.Text.Numeral

namespace PagedSearch

/-- A line of the history. Pages count from zero here and from one in the text. -/
inductive HistoryLine where
  /-- The search went on to this page. -/
  | trying (page : Nat)
  /-- The pattern was found on this page. -/
  | found (pattern : Text) (page : Nat)
  /-- The pattern was not found. -/
  | notFound (pattern : Text)
  /-- The search was stopped. -/
  | stopped
deriving DecidableEq, Repr

/-- The text of a line. -/
def HistoryLine.text : HistoryLine → Text
  | .trying page => "Trying page ".toList ++ numeral (page + 1)
  | .found pattern page =>
    "Found occurrence of \"".toList ++ pattern ++ "\" on page ".toList ++ numeral (page + 1)
  | .notFound pattern => '"' :: pattern ++ "\" was not found".toList
  | .stopped => "Search stopped".toList

/-- The greatest limit of a history. -/
def maxHistoryLimit : Nat := 10000

/-- The limit of a history that is given none. -/
def defaultHistoryLimit : Nat := 200

/-- A limit brought into the range from one to the greatest limit. -/
def clampHistoryLimit (limit : Nat) : Nat := max 1 (min limit maxHistoryLimit)

/-- The most recent lines, the oldest first. -/
structure History where
  lines : List HistoryLine := []
  limit : Nat := defaultHistoryLimit
deriving DecidableEq, Repr, Inhabited

namespace History

/-- Keeps the most recent lines, up to the limit. -/
def trimmed (h : History) : History :=
  { h with lines := h.lines.drop (h.lines.length - h.limit) }

/-- Appends a line. -/
def record (h : History) (line : HistoryLine) : History :=
  { h with lines := h.lines ++ [line] }.trimmed

/-- Appends lines one after the other. -/
def recordAll (h : History) (lines : List HistoryLine) : History := lines.foldl record h

/-- Forgets all lines. -/
def cleared (h : History) : History := { h with lines := [] }

/-- Takes another limit. -/
def withLimit (h : History) (limit : Nat) : History :=
  { h with limit := clampHistoryLimit limit }.trimmed

@[simp] theorem record_limit (h : History) (line : HistoryLine) :
    (h.record line).limit = h.limit := rfl

theorem record_length_le (h : History) (line : HistoryLine) :
    (h.record line).lines.length ≤ h.limit := by
  simp only [record, trimmed, List.length_drop, List.length_append, List.length_cons,
    List.length_nil]
  omega

theorem withLimit_limit_mem (h : History) (limit : Nat) :
    1 ≤ (h.withLimit limit).limit ∧ (h.withLimit limit).limit ≤ maxHistoryLimit := by
  simp only [withLimit, trimmed, clampHistoryLimit, maxHistoryLimit]
  omega

end History

end PagedSearch

/-
  PagedSearch.Document.Replace

  Putting another text in the place of a match. The new text goes into the
  fragment where the match begins; fragments that it covers are emptied and
  the one where it ends keeps what stands behind it, so no fragment changes
  its index. Offsets behind the end of a fragment count as its end. The offset
  behind the last character of a match is a sum: where offsets are words
  (`Document.replaceIn`), it can be none, while there is nothing to say of
  matches of the document itself.
-/
import PagedSearch.Document
import PagedSearch.Match
import PagedSearch.Word

namespace PagedSearch

/-- What becomes of fragment `i` when a match on its page is replaced whose last fragment keeps what
    stands from `stop` on. -/
def replacedFragment (m : Match) (stop : Nat) (replacement : Text) (i : Nat) (t : Text) : Text :=
  if i < m.first.fragment ∨ m.last.fragment < i then t
  else
    (if i = m.first.fragment then t.take m.first.offset ++ replacement else []) ++
      (if i = m.last.fragment then t.drop stop else [])

/-- True when a match that ends in front of `stop` can be replaced among these fragments: its
    fragments exist and are in order, and within one fragment it does not end before it begins. -/
def Match.fits (m : Match) (stop : Nat) (fragments : List Text) : Bool :=
  match fragments[m.last.fragment]? with
  | none => false
  | some t =>
    m.first.fragment < m.last.fragment ||
      (m.first.fragment == m.last.fragment && min m.first.offset t.length ≤ min stop t.length)

namespace Document

/-- Replaces a match that ends in front of `stop`; nothing when it does not fit the document. -/
def replaceUpTo? (d : Document) (m : Match) (stop : Nat) (replacement : Text) :
    Option Document :=
  match d.pages[m.page]? with
  | none => none
  | some page =>
    if m.fits stop page.fragments then
      let fragments := page.fragments.mapIdx (replacedFragment m stop replacement)
      some ⟨d.pages.set m.page ⟨fragments⟩⟩
    else none

/-- Replaces a match; nothing when it does not fit the document. -/
def replace? (d : Document) (m : Match) (replacement : Text) : Option Document :=
  d.replaceUpTo? m (m.last.offset + 1) replacement

/-! ## Offsets that are words -/

/-- True when the fragments of a match exist and are in order. -/
def reaches (d : Document) (m : Match) : Bool :=
  m.first.fragment ≤ m.last.fragment && m.last.fragment < (d.fragments m.page).length

/-- The document when all fragments of a match are edited but the last one. -/
def replaceFront (d : Document) (m : Match) (replacement : Text) : Document :=
  let fragments := (d.fragments m.page).mapIdx fun i t =>
    if i = m.last.fragment then t else replacedFragment m 0 replacement i t
  ⟨d.pages.set m.page ⟨fragments⟩⟩

/-- Replaces a match whose offsets are words, and tells whether it fitted the document. The last
    fragment is edited last, when those in front of it are. -/
def replaceIn (a : Arithmetic) (d : Document) (m : Match) (replacement : Text) :
    Document × Except Fault Bool :=
  if d.reaches m then
    match a.add m.last.offset 1 with
    | .ok stop =>
      match d.replaceUpTo? m stop replacement with
      | some d' => (d', .ok true)
      | none => (d, .ok false)
    | .error fault => (d.replaceFront m replacement, .error fault)
  else (d, .ok false)

end Document

end PagedSearch

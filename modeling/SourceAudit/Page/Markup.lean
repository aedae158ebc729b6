import SourceAudit.Text.Lines

/-!
# Markup

Text inside markup. Five characters have a meaning there and are written as entities instead.
-/

namespace SourceAudit.Page.Markup

def entities : List (Char × String) :=
  [('&', "&amp;"), ('<', "&lt;"), ('>', "&gt;"), ('\x22', "&quot;"), ('\x27', "&#39;")]

def escape (t : String) : String :=
  entities.foldl (fun t (special, entity) => Str.replace (String.singleton special) entity t)
    t

end SourceAudit.Page.Markup

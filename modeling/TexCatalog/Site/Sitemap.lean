import TexCatalog.Html.Escape

/-!
# Sitemap

The sitemap lists the pages of the site in ascending order, each with the date of the build.
-/

namespace TexCatalog.Sitemap

def head : Text :=
  "<?xml version=\"1.0\" encoding=\"UTF-8\"?>\n<urlset xmlns=\"http://www.sitemaps.org/schemas/sitemap/0.9\">\n"

def entry (baseUrl date page : Text) : Text :=
  "  <url><loc>" ++ Html.escape baseUrl ++ Html.escape page ++ "</loc><lastmod>" ++
    Html.escape date ++ "</lastmod></url>\n"

def print (pages : List Text) (baseUrl date : Text) : Text :=
  head ++ (Text.sort pages).flatMap (entry baseUrl date) ++ "</urlset>\n"

end TexCatalog.Sitemap

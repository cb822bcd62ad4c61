import TexCatalog.Proofs.SecondBuilds
import TexCatalog.Site.Command

/-!
# Running twice

A second run finds its settings and its bibliography again before it builds. They are the ones of
the first run, if the first build has not written to their files. So the whole run is the same.
-/

namespace TexCatalog

open TexCatalog.Path Store

namespace Project

variable {p : Project} {s t u : Store}

/-! ### What a run finds -/

def ofFiles (env : Text → Option Text) (today : Date) (file : Option Text) : Stage Project := do
  Project.load (← Config.load file env) today

/-- What is asked of a site that is to be built again: its directories are different, the indexes
lie in none of them, and the build from one store to the other does not write to its settings, its
template and its bibliography. -/
structure Settled (p : Project) (s t : Store) : Prop where
  sound : s.Sound
  found : ofFiles (fun _ => none) p.today none s = (.ok p, s)
  stamp : p.config.timestamp.isSome
  directories :
    ([p.config.sourceDir, p.config.intermediateDir, p.config.siteDir].map place).Nodup
  indexes : ∀ directory ∈ [p.config.sourceDir, p.config.intermediateDir, p.config.siteDir],
    p.IndexesOutside directory
  spared : ∀ path ∈ Config.defaultFile ::
    (p.config.template.toList ++ p.config.bibliography.toList), p.Spares s t path

end Project

end TexCatalog

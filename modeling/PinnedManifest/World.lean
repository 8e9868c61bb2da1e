import PinnedManifest.Files.Replacement
import PinnedManifest.Generation

/-!
# World — runs over a tree of files and a network with a state

A world is a volume, the state of what answers requests, the addresses asked for so far and the log
so far.  `World.host` is the host that acts on it.
-/

namespace PinnedManifest

/-- Everything that a run can see or change. -/
structure World (σ : Type) where
  files : Files.Volume
  network : σ
  fetched : List String
  log : List Log.Entry

namespace World

variable {σ : Type}

/-- A world in which nothing has been asked for or said. -/
def start (files : Files.Volume) (network : σ) : World σ := ⟨files, network, [], []⟩

/-- The host that acts on a world. -/
def host (caller : Files.Caller) (fetcher : Fetcher σ) : Host (StateM (World σ)) where
  read path w := (w.files.read caller path, w)
  fetch url w :=
    let (reply, network) := fetcher url w.network
    (reply, { w with network := network, fetched := w.fetched ++ [url] })
  replace path content w :=
    let (result, files) := ((Files.Volume.disk caller).replace path content).run w.files
    (result, { w with files := files })
  log entry w := ((), { w with log := w.log ++ [entry] })

/-- A whole run in a world. -/
def generate (caller : Files.Caller) (fetcher : Fetcher σ) (catalog : Catalog) (config : Config)
    (w : World σ) : Except RunError Records × World σ :=
  ((host caller fetcher).generate catalog config).run w

end World

end PinnedManifest

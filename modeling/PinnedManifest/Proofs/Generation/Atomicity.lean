import PinnedManifest.Proofs.Generation.Incidents

/-!
# Proofs/Generation/Atomicity — an output is never seen half written

The last stage of a run replaces the output in steps.  `replacement_atomic` says what there is between
any two of them, and what is left when one of them fails.
-/

namespace PinnedManifest

namespace Files.Volume

variable {c : Caller} {path : String} {content : List UInt8} {v : Volume} {w : Watch}

/-- What a run's last stage does to the files is what it does without incidents. -/
theorem run_replace_eq_watched {σ : Type} (fetcher : Fetcher σ) (world : World σ) :
    (Host.attempt (.output path) ((World.host c fetcher).replace path content)).run world =
      match (Host.attempt (.output path) ((disk c).watched.replace path content)).run
        (.start world.files []) with
      | (result, w) => (result, { world with files := w.files }) := by
  rw [← World.hostAmid_nil, Host.run_attempt, Host.run_attempt]
  simp only [World.hostAmid, ExceptT.run]
  rcases (disk c).watched.replace path content (.start world.files []) with ⟨_ | _, _⟩ <;> rfl

/-- **At every point of a replacement** what the path names is as it was, or complete. -/
theorem node?_of_mem_seen {plan : List Incident} {result : Except RunError Unit}
    (h : (Host.attempt (.output path) ((disk c).watched.replace path content)).run (.start v plan)
      = (result, w)) {u : Volume} (hu : u ∈ w.seen) {e : Entry} (he : v.entry c path = .ok e) :
    u.node? (e.place ++ [e.name]) = v.node? (e.place ++ [e.name]) ∨
      ∃ found, v.modeAt? c path = .ok found ∧ u.node? (e.place ++ [e.name])
        = some (.file (found.getD newFileMode) content) := by
  obtain ⟨hseen, -⟩ := goes_replace c path content v (.start v plan) rfl
  rw [Host.run_attempt] at h
  have hw : (((disk c).watched.replace path content).run (.start v plan)).2 = w := by
    rw [ExceptT.run]
    rcases hrun : (disk c).watched.replace path content (.start v plan) with ⟨_ | _, w'⟩ <;>
      rw [hrun] at h <;> exact congrArg Prod.snd h
  rw [hw] at hseen
  rcases hseen u hu with hfirst | hunderway
  · exact .inl (by rw [List.mem_singleton.mp hfirst])
  · exact hunderway.entry he

/-- **How a replacement ends**: with the output replaced and no fault, or in the one fault of its steps,
under the path, and with the tree there was before. -/
theorem end_of_replace (c : Caller) (path : String) (content : List UInt8) (v : Volume)
    (plan : List Incident) :
    match (Host.attempt (.output path) ((disk c).watched.replace path content)).run (.start v plan) with
    | (.ok (), w) => w.faults = [] ∧ ∃ found e, v.modeAt? c path = .ok found ∧
        v.entry c path = .ok e ∧
        w.files = v.put e.place e.name (.file (found.getD newFileMode) content)
    | (.error e, w) => (∀ f ∈ w.faults, e = .output path f) ∧ (∃ f, e = .output path f) ∧
        w.files = v := by
  obtain ⟨-, hend⟩ := goes_replace c path content v (.start v plan) rfl
  rw [ExceptT.run] at hend
  rw [Host.run_attempt]
  rcases hrun : (disk c).watched.replace path content (.start v plan) with ⟨f | _, w⟩
  · rw [hrun] at hend
    refine ⟨fun g hg => ?_, ⟨f, rfl⟩, hend.2⟩
    obtain hmem | rfl := hend.1 g hg
    · cases hmem
    · rfl
  · rw [hrun] at hend
    obtain ⟨hfaults, found, e, hcan, hfiles⟩ := hend
    exact ⟨hfaults, found, e, hcan.mode, hcan.overwritable.entry, hfiles⟩

end Files.Volume

namespace Sample

/-! ## An interrupted replacement

The first write takes one byte of two, and the staged file cannot be synced. -/

/-- A tree with an output in it. -/
def outTree (content : List UInt8) : Files.Volume :=
  ⟨.directory 0o755 [("out", .file 0o640 content)], []⟩

/-- A fault of a sync. -/
def syncFault : Files.Fault := .other "Input/output error (os error 5)"

def interruption : List Files.Incident := [.calm, .calm, .short 1, .calm, .calm, .fault syncFault]

end Sample

open Files in
/-- **A replacement is atomic at every point** — whatever befalls its steps, at every point between two
of them the entry that the path names is as it was, or a file with the whole content and its final mode;
a step that fails ends the replacement with its fault and the path; and a replacement that ends in an
error leaves the tree as it was.  Without incidents the steps are those that a run performs. -/
theorem replacement_atomic {c : Caller} {path : String} {content : List UInt8} {v : Volume}
    {plan : List Incident} {result : Except RunError Unit} {w : Watch}
    (h : (Host.attempt (.output path) ((Volume.disk c).watched.replace path content)).run
      (Watch.start v plan) = (result, w)) :
    (∀ u ∈ w.seen, ∀ e, v.entry c path = .ok e →
      u.node? (e.place ++ [e.name]) = v.node? (e.place ++ [e.name]) ∨
        ∃ found, v.modeAt? c path = .ok found ∧ u.node? (e.place ++ [e.name])
          = some (.file (found.getD newFileMode) content)) ∧
    (∀ f ∈ w.faults, result = .error (.output path f)) ∧
    (∀ e, result = .error e → (∃ f, e = .output path f) ∧ w.files = v) ∧
    (result = .ok () → ∃ found e, v.modeAt? c path = .ok found ∧ v.entry c path = .ok e ∧
      w.files = v.put e.place e.name (.file (found.getD newFileMode) content)) ∧
    (plan = [] → ∀ (σ : Type) (fetcher : Fetcher σ) (world : World σ), world.files = v →
      (Host.attempt (.output path) ((World.host c fetcher).replace path content)).run world
        = (result, { world with files := w.files })) := by
  have hend := Volume.end_of_replace c path content v plan
  rw [h] at hend
  have hcalm : plan = [] → ∀ (σ : Type) (fetcher : Fetcher σ) (world : World σ), world.files = v →
      (Host.attempt (.output path) ((World.host c fetcher).replace path content)).run world
        = (result, { world with files := w.files }) := by
    rintro rfl σ fetcher world rfl
    rw [Volume.run_replace_eq_watched, h]
  cases result with
  | ok _ =>
    obtain ⟨hfaults, hdone⟩ := hend
    refine ⟨fun u hu e he => Volume.node?_of_mem_seen h hu he, fun f hf => ?_, nofun,
      fun _ => hdone, hcalm⟩
    rw [hfaults] at hf
    cases hf
  | error e =>
    obtain ⟨hfaults, hpath, hfiles⟩ := hend
    refine ⟨fun u hu e he => Volume.node?_of_mem_seen h hu he, fun f hf => ?_, fun e' he => ?_, nofun,
      hcalm⟩
    · rw [hfaults f hf]
    · cases he
      exact ⟨hpath, hfiles⟩

/-- A replacement whose staged file takes two writes and cannot be synced. -/
theorem replacement_atomic_sample :
    ∃ w, (Host.attempt (.output "out")
        ((Files.Volume.disk .owner).watched.replace "out" [7, 8])).run
        (.start (Sample.outTree [1]) Sample.interruption)
          = (.error (.output "out" Sample.syncFault), w) ∧
      w.seen.length = 8 ∧ w.faults = [Sample.syncFault] ∧ w.files = Sample.outTree [1] ∧
      ∀ u ∈ w.seen, u.node? ["out"] = some (.file 0o640 [1]) ∨
        u.node? ["out"] = some (.file 0o640 [7, 8]) := by
  obtain ⟨w, hrun, hsteps, hfaults⟩ : ∃ w, (Host.attempt (.output "out")
      ((Files.Volume.disk .owner).watched.replace "out" [7, 8])).run
      (.start (Sample.outTree [1]) Sample.interruption)
        = (.error (.output "out" Sample.syncFault), w) ∧
      w.seen.length = 8 ∧ w.faults = [Sample.syncFault] := ⟨_, rfl, rfl, rfl⟩
  obtain ⟨hseen, -, herror, -, -⟩ := replacement_atomic hrun
  have hentry : (Sample.outTree [1]).entry .owner "out"
      = .ok ⟨[], 0o755, [("out", .file 0o640 [1])], "out"⟩ := rfl
  refine ⟨w, hrun, hsteps, hfaults, (herror _ rfl).2, fun u hu => ?_⟩
  rcases hseen u hu _ hentry with hold | ⟨found, hfound, hnew⟩
  · exact .inl hold
  · have hmode : found = some 0o640 := by cases hfound; rfl
    exact .inr (by rw [hmode] at hnew; exact hnew)

end PinnedManifest

import PinnedManifest.Proofs.Files.Watch
import PinnedManifest.Proofs.Files.Replaceable

/-!
# Proofs/Files/Interruption — no step of a replacement shows part of a file

Between any two steps of a replacement the tree is the one before it, that one with a file staged
beside the output, or that one with the output replaced (`Volume.Underway`), whatever befalls the steps.
So what the path names is there as it was or complete, with its final mode; and a step that fails ends
the replacement with its fault and with the tree there was before.
-/

namespace PinnedManifest.Files

/-! ## Watched computations -/

/-- A step under watch that nothing befalls does what it does. -/
theorem Watch.run_step {α : Type} {x : ExceptT Fault (StateM Volume) α} {w : Watch}
    (hplan : ∀ f plan, w.plan ≠ .fault f :: plan) :
    (Watch.step x).run w = w.keep (x.run w.files) := by
  simp only [Watch.step, ExceptT.run, ExceptT.mk]

/-- **What a watched computation does from a tree** — every tree on the way has a property `P`; it ends
in a result and a tree for which `Q` holds, without a fault, or in the one fault of its steps and a tree
for which `E` holds. -/
def Goes {α : Type} (P : Volume → Prop) (Q : α → Volume → Prop) (E : Volume → Prop)
    (x : ExceptT Fault (StateM Watch) α) (v : Volume) : Prop :=
  ∀ w : Watch, w.files = v → (∀ u ∈ (x.run w).2.seen, u ∈ w.seen ∨ P u) ∧
    match x.run w with
    | (.ok a, w') => w'.faults = w.faults ∧ Q a w'.files
    | (.error f, w') => (∀ g ∈ w'.faults, g ∈ w.faults ∨ g = f) ∧ E w'.files

namespace Goes

variable {α β : Type} {P : Volume → Prop} {Q : α → Volume → Prop} {E : Volume → Prop} {v : Volume}

theorem pure {a : α} (h : Q a v) : Goes P Q E (Pure.pure a) v := by
  rintro w rfl
  exact ⟨fun u hu => .inl hu, rfl, h⟩

theorem throw {f : Fault} (h : E v) : Goes P Q E (throw f) v := by
  rintro w rfl
  exact ⟨fun u hu => .inl hu, fun g hg => .inl hg, h⟩

/-- **One computation after the other.** -/
theorem bind {R : β → Volume → Prop} {x : ExceptT Fault (StateM Watch) α}
    {f : α → ExceptT Fault (StateM Watch) β} (hx : Goes P Q E x v)
    (hf : ∀ a u, Q a u → Goes P R E (f a) u) : Goes P R E (x >>= f) v := by
  intro w hw
  obtain ⟨hseen, hend⟩ := hx w hw
  rw [run_bind]
  rcases hrun : x.run w with ⟨fault | a, w'⟩
  · rw [hrun] at hseen hend
    exact ⟨hseen, hend⟩
  · rw [hrun] at hseen hend
    obtain ⟨hfaults, hQ⟩ := hend
    obtain ⟨hseen', hend'⟩ := hf a w'.files hQ w' rfl
    refine ⟨fun u hu => (hseen' u hu).elim (hseen u) .inr, ?_⟩
    simp only
    rw [← hfaults]
    exact hend'

/-- What holds at the end may be said more weakly. -/
theorem imp {R : α → Volume → Prop} {x : ExceptT Fault (StateM Watch) α} (hx : Goes P Q E x v)
    (h : ∀ a u, Q a u → R a u) : Goes P R E x v := by
  intro w hw
  obtain ⟨hseen, hend⟩ := hx w hw
  refine ⟨hseen, ?_⟩
  rcases hrun : x.run w with ⟨fault | a, w'⟩ <;> rw [hrun] at hend
  · exact hend
  · exact ⟨hend.1, h a _ hend.2⟩

/-- One more step, one more tree. -/
theorem mem_seen_after {w : Watch} {files : Volume} {fault? : Option Fault} (hP : P files) :
    ∀ u ∈ (w.after files fault?).seen, u ∈ w.seen ∨ P u := by
  intro u hu
  rcases List.mem_append.mp hu with hu | hu
  · exact .inl hu
  · rw [List.mem_singleton.mp hu]
    exact .inr hP

/-- A step that ends in a fault has one more. -/
theorem mem_faults_after {w : Watch} {files : Volume} {f : Fault} :
    ∀ g ∈ (w.after files (some f)).faults, g ∈ w.faults ∨ g = f := by
  intro g hg
  exact (List.mem_append.mp hg).imp_right List.mem_singleton.mp

/-- A step that ends well has none. -/
theorem faults_after_none (w : Watch) (files : Volume) : (w.after files none).faults = w.faults :=
  List.append_nil _

/-- **A step under watch** fails without a change, or does what it does. -/
theorem step {x : ExceptT Fault (StateM Volume) α} (hP : P v) (hE : E v)
    (h : match x.run v with
      | (.ok a, u) => P u ∧ Q a u
      | (.error _, u) => P u ∧ E u) : Goes P Q E (Watch.step x) v := by
  rintro w rfl
  by_cases hplan : ∃ f plan, w.plan = .fault f :: plan
  · obtain ⟨f, plan, hplan⟩ := hplan
    have hrun : (Watch.step x).run w = (.error f, w.after w.files (some f)) := by
      simp only [Watch.step, ExceptT.run, ExceptT.mk, hplan]
    rw [hrun]
    exact ⟨mem_seen_after hP, mem_faults_after, hE⟩
  · rw [Watch.run_step fun f plan h => hplan ⟨f, plan, h⟩]
    rcases hx : x.run w.files with ⟨f | a, files⟩
    · rw [hx] at h
      exact ⟨mem_seen_after h.1, mem_faults_after, h.2⟩
    · rw [hx] at h
      exact ⟨mem_seen_after h.1, faults_after_none .., h.2⟩

/-- **A rescue that gives the fault on** after it has put the tree in order. -/
theorem tryCatch {E' : Volume → Prop} {x : ExceptT Fault (StateM Watch) α}
    {rescue : Fault → ExceptT Fault (StateM Watch) α} (hx : Goes P Q E' x v)
    (hrescue : ∀ f w, E' w.files → ∃ files, (rescue f).run w = (.error f, w.after files none) ∧
      P files ∧ E files) : Goes P Q E (MonadExcept.tryCatch x rescue) v := by
  intro w hw
  obtain ⟨hseen, hend⟩ := hx w hw
  have hrun : (MonadExcept.tryCatch x rescue).run w = _ := run_tryCatch x rescue w
  rcases hx' : x.run w with ⟨f | a, w'⟩
  · rw [hx'] at hseen hend hrun
    obtain ⟨hfaults, hE'⟩ := hend
    obtain ⟨files, hfiles, hP, hE⟩ := hrescue f w' hE'
    rw [hrun]
    simp only [hfiles]
    refine ⟨fun u hu => (mem_seen_after hP u hu).elim (hseen u) .inr, ?_, hE⟩
    rw [faults_after_none]
    exact hfaults
  · rw [hx'] at hseen hend hrun
    rw [hrun]
    exact ⟨hseen, hend⟩

end Goes

namespace Volume

variable {v : Volume} {c : Caller} {path : String} {content : List UInt8} {s : StagedFile}

/-! ## The trees on the way -/

/-- **The trees that there can be while a file is replaced**: the one at first, that one with a staged
file in it, and that one with the output replaced. -/
inductive Underway (v : Volume) (c : Caller) (path : String) (content : List UInt8) : Volume → Prop
  | before : Underway v c path content v
  | staged {s : StagedFile} {u : Volume} (mode : Mode) (bytes : List UInt8) :
      v.stageBeside c path = .ok (s, u) →
      Underway v c path content (v.put s.place s.name (.file mode bytes))
  | replaced {found : Option Mode} {e : Entry} :
      v.modeAt? c path = .ok found → v.Overwritable c path e →
      Underway v c path content (v.put e.place e.name (.file (found.getD newFileMode) content))

/-- **What the path names is as it was, or complete** with its final mode. -/
theorem Underway.entry {u : Volume} {e : Entry} (h : v.Underway c path content u)
    (he : v.entry c path = .ok e) :
    u.node? (e.place ++ [e.name]) = v.node? (e.place ++ [e.name]) ∨
      ∃ found, v.modeAt? c path = .ok found ∧ u.node? (e.place ++ [e.name])
        = some (.file (found.getD newFileMode) content) := by
  cases h with
  | before => exact .inl rfl
  | @staged s _ mode bytes hs =>
    -- the staged file is another entry of the same directory
    obtain ⟨hplace, hne⟩ := place_of_stageBeside hs he
    rw [hplace]
    refine .inl (node?_put_apart (fun hpre => hne ?_) fun hpre => ?_)
    · have heq := hpre.eq_of_length (by simp)
      simpa using heq
    · have hlen := hpre.length_le
      rw [List.length_append, List.length_singleton] at hlen
      omega
  | @replaced found e' hfound he' =>
    cases he'.entry.symm.trans he
    exact .inr ⟨found, hfound, node?_put (node?_of_entry he)⟩

/-! ## The steps of a replacement under watch -/

/-- A tree with one more file in it. -/
def Staged (v : Volume) (s : StagedFile) (u : Volume) : Prop :=
  ∃ mode bytes, u = v.put s.place s.name (.file mode bytes)

theorem staged_put (mode : Mode) (bytes : List UInt8) :
    v.Staged s (v.put s.place s.name (.file mode bytes)) := ⟨mode, bytes, rfl⟩

section Steps

variable {P : Volume → Prop} (hP : ∀ mode bytes, P (v.put s.place s.name (.file mode bytes)))

include hP

/-- **A write** adds as many bytes as it says. -/
theorem goes_append (mode : Mode) (written bytes : List UInt8) :
    Goes P (fun n u => u = v.put s.place s.name (.file mode (written ++ bytes.take n))) (v.Staged s)
      ((disk c).watched.append s bytes) (v.put s.place s.name (.file mode written)) := by
  intro w hw
  obtain ⟨count, hcount⟩ : ∃ count, w.portion bytes = bytes.take count := by
    rw [Watch.portion]
    split
    next count _ _ => exact ⟨count, rfl⟩
    next => exact ⟨bytes.length, (List.take_length).symm⟩
  have hrun : ((disk c).watched.append s bytes).run w
      = (Watch.step ((disk c).append s (bytes.take count))).run w := by
    rw [← hcount]
    rfl
  have hstep : Goes P
      (fun n u => u = v.put s.place s.name (.file mode (written ++ bytes.take n))) (v.Staged s)
      (Watch.step ((disk c).append s (bytes.take count)))
      (v.put s.place s.name (.file mode written)) := by
    refine .step (hP _ _) (staged_put mode written) ?_
    rw [run_append]
    refine ⟨hP _ _, ?_⟩
    rw [List.length_take, ← List.take_eq_take_min]
  rw [hrun]
  exact hstep w hw

/-- **All writes** add all bytes, or end with some of them in the staged file. -/
theorem goes_appendAll (mode : Mode) : ∀ (fuel : Nat) (bytes written : List UInt8),
    Goes P (fun _ u => u = v.put s.place s.name (.file mode (written ++ bytes))) (v.Staged s)
      ((disk c).watched.appendAll s fuel bytes) (v.put s.place s.name (.file mode written))
  | fuel, [], written => by
      rw [Disk.appendAll]
      exact .pure (by rw [List.append_nil])
  | 0, _ :: _, written => .throw (staged_put mode written)
  | fuel + 1, b :: bytes, written => by
      rw [Disk.appendAll]
      refine .bind (goes_append hP mode written (b :: bytes)) fun n u hu => ?_
      subst hu
      by_cases hn : n = 0
      · rw [if_pos hn]
        exact .bind (Q := fun _ _ => False) (.throw (staged_put mode _))
          fun _ _ h => h.elim
      · rw [if_neg hn]
        have hrest := goes_appendAll mode fuel ((b :: bytes).drop n) (written ++ (b :: bytes).take n)
        rw [List.append_assoc, List.take_append_drop] at hrest
        exact hrest

theorem goes_setMode (mode old : Mode) (bytes : List UInt8) :
    Goes P (fun _ u => u = v.put s.place s.name (.file mode bytes)) (v.Staged s)
      (Watch.step ((disk c).setMode s mode)) (v.put s.place s.name (.file old bytes)) := by
  refine .step (hP _ _) (staged_put old bytes) ?_
  rw [run_setMode]
  exact ⟨hP _ _, rfl⟩

theorem goes_sync (mode : Mode) (bytes : List UInt8) :
    Goes P (fun _ u => u = v.put s.place s.name (.file mode bytes)) (v.Staged s)
      (Watch.step ((disk c).sync s)) (v.put s.place s.name (.file mode bytes)) :=
  .step (hP _ _) (staged_put mode bytes) ⟨hP _ _, rfl⟩

/-- **The move** is the one step that changes what the path names. -/
theorem goes_install {mode' : Mode} {es : Entries}
    (hplace : v.node? s.place = some (.directory mode' es)) (hnew : Entries.find? s.name es = none)
    (mode : Mode) (bytes : List UInt8)
    (hdone : ∀ e, v.Overwritable c path e → P (v.put e.place e.name (.file mode bytes))) :
    Goes P (fun _ u => ∃ e, v.Overwritable c path e ∧ u = v.put e.place e.name (.file mode bytes))
      (v.Staged s) (Watch.step ((disk c).install s path)) (v.put s.place s.name (.file mode bytes)) := by
  refine .step (hP _ _) (staged_put mode bytes) ?_
  simp only [disk, run_onState]
  cases hmove : (v.put s.place s.name (.file mode bytes)).moveTo c s path with
  | error f => exact ⟨hP _ _, mode, bytes, rfl⟩
  | ok u =>
    obtain ⟨e, he, rfl⟩ := (moveTo_put_eq_ok_iff rfl hplace hnew).mp hmove
    exact ⟨hdone e he, e, he, rfl⟩

/-- **The staged file completed** — filled, given its mode, and moved, if nothing befalls the steps. -/
theorem goes_complete (c : Caller) (content : List UInt8) {mode' : Mode} {es : Entries}
    (hplace : v.node? s.place = some (.directory mode' es)) (hnew : Entries.find? s.name es = none)
    (mode : Mode)
    (hdone : ∀ e, v.Overwritable c path e → P (v.put e.place e.name (.file mode content))) :
    Goes P (fun _ u => ∃ e, v.Overwritable c path e ∧ u = v.put e.place e.name (.file mode content))
      (v.Staged s) ((disk c).watched.complete s mode path content)
      (v.put s.place s.name (.file stagedMode [])) := by
  rw [Disk.complete]
  refine .bind (goes_appendAll hP stagedMode content.length content []) fun _ u hu => ?_
  subst hu
  refine .bind (goes_setMode (c := c) hP mode stagedMode _) fun _ u hu => ?_
  subst hu
  refine .bind (goes_sync (c := c) hP mode _) fun _ u hu => ?_
  subst hu
  exact goes_install hP hplace hnew mode content hdone

end Steps

/-- **A replacement under watch** leads only through trees that are underway; it ends with the output
replaced, where it can be, or in a fault and with the tree there was before. -/
theorem goes_replace (c : Caller) (path : String) (content : List UInt8) (v : Volume) :
    Goes (v.Underway c path content)
      (fun _ u => ∃ found e, v.Replaceable c path found e ∧
        u = v.put e.place e.name (.file (found.getD newFileMode) content))
      (· = v) ((disk c).watched.replace path content) v := by
  rw [Disk.replace]
  refine .bind (Q := fun found u => v.modeAt? c path = .ok found ∧ u = v) (.step .before rfl ?_) ?_
  · rw [run_inspect]
    cases v.modeAt? c path with
    | error f => exact ⟨.before, rfl⟩
    | ok found => exact ⟨.before, rfl, rfl⟩
  rintro found u ⟨hfound, hu⟩
  subst u
  by_cases hro : found.any isReadOnly = true
  · rw [if_pos hro]
    exact .bind (Q := fun _ _ => False) (.throw rfl) fun _ _ h => h.elim
  rw [if_neg hro]
  refine .bind (Q := fun s u => v.stageBeside c path = .ok (s, u)) (.step .before rfl ?_) ?_
  · rw [run_stage]
    cases hs : v.stageBeside c path with
    | error f => exact ⟨.before, rfl⟩
    | ok d =>
      obtain ⟨s, u⟩ := d
      obtain ⟨-, -, -, -, -, -, rfl⟩ := stageBeside_eq_ok hs
      exact ⟨.staged stagedMode [] hs, rfl⟩
  intro s u hs
  obtain ⟨mode, es, hdir, -, hnew, -, rfl⟩ := stageBeside_eq_ok hs
  have hplace := (directory_eq_ok_iff.mp hdir).2.1
  have hcomplete := goes_complete (P := v.Underway c path content)
    (fun mode bytes => .staged mode bytes hs) c content hplace hnew (found.getD newFileMode)
    fun e he => .replaced hfound he
  refine .imp (.tryCatch hcomplete ?rescue) ?done
  case done =>
    rintro _ u ⟨e, he, hu⟩
    exact ⟨found, e, ⟨hfound, by simpa using hro, short_of_stageBeside hs, he⟩, hu⟩
  rintro f w ⟨mode', bytes, hw⟩
  refine ⟨v, ?_, .before, rfl⟩
  have herase : w.files.erase s.place s.name = v := by rw [hw, erase_put_of_node? hplace hnew]
  rw [run_bind]
  change (Except.error f, w.after (w.files.erase s.place s.name) none) = _
  rw [herase]

end Volume

/-! ## Calm -/

/-- **What a watched computation does without incidents** is what the computation does. -/
def Follows {α : Type} (x : ExceptT Fault (StateM Watch) α) (y : ExceptT Fault (StateM Volume) α) :
    Prop :=
  ∀ w : Watch, w.plan = [] → (x.run w).2.plan = [] ∧
    ((x.run w).1, (x.run w).2.files) = y.run w.files

namespace Follows

variable {α β : Type}

theorem pure (a : α) : Follows (Pure.pure a) (Pure.pure a) := fun _ hw => ⟨hw, rfl⟩

theorem throw (f : Fault) : Follows (α := α) (throw f) (throw f) := fun _ hw => ⟨hw, rfl⟩

theorem step (x : ExceptT Fault (StateM Volume) α) : Follows (Watch.step x) x := by
  intro w hw
  have hplan (files : Volume) (fault? : Option Fault) : (w.after files fault?).plan = [] := by
    rw [Watch.after, hw, List.tail_nil]
  rw [Watch.run_step fun f plan h => List.cons_ne_nil _ _ (h.symm.trans hw)]
  rcases x.run w.files with ⟨f | a, files⟩ <;> exact ⟨hplan _ _, rfl⟩

/-- **One computation after the other.** -/
theorem bind {x : ExceptT Fault (StateM Watch) α} {y : ExceptT Fault (StateM Volume) α}
    {f : α → ExceptT Fault (StateM Watch) β} {g : α → ExceptT Fault (StateM Volume) β}
    (hx : Follows x y) (hf : ∀ a, Follows (f a) (g a)) : Follows (x >>= f) (y >>= g) := by
  intro w hw
  obtain ⟨hplan, heq⟩ := hx w hw
  rw [run_bind, run_bind, ← heq]
  rcases hrun : x.run w with ⟨fault | a, w'⟩ <;> rw [hrun] at hplan
  · exact ⟨hplan, rfl⟩
  · exact hf a w' hplan

theorem tryCatch {x : ExceptT Fault (StateM Watch) α} {y : ExceptT Fault (StateM Volume) α}
    {f : Fault → ExceptT Fault (StateM Watch) α} {g : Fault → ExceptT Fault (StateM Volume) α}
    (hx : Follows x y) (hf : ∀ fault, Follows (f fault) (g fault)) :
    Follows (MonadExcept.tryCatch x f) (MonadExcept.tryCatch y g) := by
  intro w hw
  obtain ⟨hplan, heq⟩ := hx w hw
  have hrunx : (MonadExcept.tryCatch x f).run w = _ := run_tryCatch x f w
  have hruny : (MonadExcept.tryCatch y g).run w.files = _ := run_tryCatch y g w.files
  rw [hrunx, hruny, ← heq]
  rcases hrun : x.run w with ⟨fault | a, w'⟩ <;> rw [hrun] at hplan
  · exact hf fault w' hplan
  · exact ⟨hplan, rfl⟩

end Follows

namespace Disk

variable {Staged : Type} (disk : Disk (StateM Volume) Staged)

theorem follows_append (s : Staged) (bytes : List UInt8) :
    Follows (disk.watched.append s bytes) (disk.append s bytes) := by
  intro w hw
  have hportion : w.portion bytes = bytes := by rw [Watch.portion, hw]
  have hrun : (disk.watched.append s bytes).run w
      = (Watch.step (disk.append s (w.portion bytes))).run w := rfl
  rw [hrun, hportion]
  exact Follows.step _ w hw

theorem follows_appendAll (disk : Disk (StateM Volume) Staged) (s : Staged) :
    ∀ (fuel : Nat) (bytes : List UInt8),
      Follows (disk.watched.appendAll s fuel bytes) (disk.appendAll s fuel bytes)
  | fuel, [] => by
      rw [appendAll, appendAll]
      exact .pure ()
  | 0, _ :: _ => .throw stalled
  | fuel + 1, b :: bytes => by
      rw [appendAll, appendAll]
      refine .bind (disk.follows_append s _) fun n => ?_
      have hrest := follows_appendAll disk s fuel ((b :: bytes).drop n)
      by_cases hn : n = 0
      · rw [if_pos hn, if_pos hn]
        exact .bind (.throw stalled) fun _ => hrest
      · rw [if_neg hn, if_neg hn]
        exact hrest

theorem follows_complete (s : Staged) (mode : Mode) (path : String) (content : List UInt8) :
    Follows (disk.watched.complete s mode path content) (disk.complete s mode path content) := by
  refine .bind (disk.follows_appendAll s _ _) fun _ => ?_
  refine .bind (.step _) fun _ => ?_
  exact .bind (.step _) fun _ => .step _

theorem follows_discard (s : Staged) (f : Fault) :
    Follows (α := Unit)
      (do ExceptT.lift (disk.watched.discard s); MonadExcept.throw f)
      (do ExceptT.lift (disk.discard s); MonadExcept.throw f) := by
  refine .bind (fun w hw => ⟨?_, rfl⟩) fun _ => .throw f
  change w.plan.tail = []
  rw [hw, List.tail_nil]

/-- **Without incidents a watched disk does what the disk does.** -/
theorem follows_replace (path : String) (content : List UInt8) :
    Follows (disk.watched.replace path content) (disk.replace path content) := by
  refine .bind (.step _) fun found => ?_
  by_cases hro : found.any isReadOnly = true
  · rw [if_pos hro, if_pos hro]
    exact fun _ hw => ⟨hw, rfl⟩
  · rw [if_neg hro, if_neg hro]
    refine .bind (.step _) fun s => ?_
    exact .tryCatch (disk.follows_complete s _ path content) (disk.follows_discard s)

end Disk

end PinnedManifest.Files

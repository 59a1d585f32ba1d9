import LineAtlas.Fault
import Mathlib.Data.List.Perm.Lattice
import Mathlib.Logic.Function.Basic
import Mathlib.Logic.Relation
import Mathlib.Tactic.ByContra

/-!
# A pool of workers

Tasks are handed to a pool one after the other, workers take them up and finish them in any order, and
the results are received in the order in which the tasks were handed over, up to the first fault. The
pool is left when all tasks are finished. What was received then does not depend on the workers.
-/

namespace LineAtlas.Loading

variable {κ : Type} [DecidableEq κ] {β : κ → Type}

/-- The tasks by how far they are, with those that were ever taken up, the tasks whose results have not
been received, the results received and the fault at which that stopped. -/
structure Pool (κ : Type) (β : κ → Type) where
  coming : List κ
  queued : List κ
  running : List κ
  finished : List κ
  takenUp : List κ
  awaited : List κ
  received : (k : κ) → Option (β k)
  fault : Option Fault

def faultOf? {α : Type} : Except Fault α → Option Fault
  | .ok _ => none
  | .error f => some f

namespace Pool

def start (tasks : List κ) : Pool κ β :=
  ⟨tasks, [], [], [], [], tasks, fun _ => none, none⟩

/-- What may happen next in a pool of so many workers, where `work` tells how each task turns out. -/
inductive Step (workers : Nat) (work : (k : κ) → Except Fault (β k)) :
    Pool κ β → Pool κ β → Prop
  | submit {s k rest} (hcoming : s.coming = k :: rest) :
    Step workers work s { s with coming := rest, queued := s.queued ++ [k] }
  | takeUp {s k} (hqueued : k ∈ s.queued) (hfree : s.running.length < workers) :
    Step workers work s
      { s with queued := s.queued.erase k, running := k :: s.running, takenUp := s.takenUp ++ [k] }
  | finish {s k} (hrunning : k ∈ s.running) :
    Step workers work s { s with running := s.running.erase k, finished := k :: s.finished }
  | receive {s k rest b} (hcoming : s.coming = []) (hfault : s.fault = none)
    (hawaited : s.awaited = k :: rest) (hfinished : k ∈ s.finished) (hwork : work k = .ok b) :
    Step workers work s
      { s with awaited := rest, received := Function.update s.received k (some b) }
  | stop {s k rest f} (hcoming : s.coming = []) (hfault : s.fault = none)
    (hawaited : s.awaited = k :: rest) (hfinished : k ∈ s.finished) (hwork : work k = .error f) :
    Step workers work s { s with fault := some f }

structure Done (s : Pool κ β) : Prop where
  submitted : s.coming = []
  takenUp : s.queued = []
  finished : s.running = []
  received : s.awaited = [] ∨ s.fault.isSome = true

def Reaches (workers : Nat) (work : (k : κ) → Except Fault (β k)) :
    Pool κ β → Pool κ β → Prop :=
  Relation.ReflTransGen (Step workers work)

/-- What holds of a pool at any time: no task is lost or doubled, and results are received in order. -/
structure Sound (tasks : List κ) (work : (k : κ) → Except Fault (β k)) (s : Pool κ β) : Prop where
  kept : (s.coming ++ (s.queued ++ (s.running ++ s.finished))).Perm tasks
  takenUp : s.takenUp.Perm (s.running ++ s.finished)
  received : ∃ earlier, tasks = earlier ++ s.awaited ∧
    ∀ k ∈ earlier, ∃ b, work k = .ok b ∧ s.received k = some b
  fault : ∀ f ∈ s.fault, ∃ k rest, s.awaited = k :: rest ∧ work k = .error f

variable {tasks : List κ} {workers : Nat} {work : (k : κ) → Except Fault (β k)} {s s' : Pool κ β}

omit [DecidableEq κ] in
theorem sound_start (tasks : List κ) (work : (k : κ) → Except Fault (β k)) :
    Sound tasks work (start tasks) :=
  ⟨by simp [start], by simp [start], ⟨[], rfl, by simp⟩, by simp [start]⟩

theorem erase_append_cons_perm {l : List κ} {k : κ} (h : k ∈ l) (rest : List κ) :
    (l.erase k ++ k :: rest).Perm (l ++ rest) :=
  List.perm_middle.trans ((List.perm_cons_erase h).symm.append_right rest)

/-- Whatever happens keeps a pool sound. -/
theorem Sound.step (h : Sound tasks work s) (hstep : Step workers work s s') :
    Sound tasks work s' := by
  cases hstep with
  | @submit k rest hcoming =>
      refine ⟨.trans ?_ h.kept, h.takenUp, h.received, h.fault⟩
      have hqueued : (s.queued ++ [k] ++ (s.running ++ s.finished)).Perm
          (k :: (s.queued ++ (s.running ++ s.finished))) := by
        rw [List.append_assoc, List.singleton_append]
        exact List.perm_middle
      rw [hcoming]
      exact (hqueued.append_left rest).trans List.perm_middle
  | @takeUp k hqueued hfree =>
      refine ⟨.trans ?_ h.kept, ?_, h.received, h.fault⟩
      · exact (erase_append_cons_perm hqueued _).append_left s.coming
      · exact (List.perm_append_singleton k s.takenUp).trans (h.takenUp.cons k)
  | @finish k hrunning =>
      have hmoved := erase_append_cons_perm hrunning s.finished
      refine ⟨.trans ?_ h.kept, h.takenUp.trans hmoved.symm, h.received, h.fault⟩
      exact (hmoved.append_left s.queued).append_left s.coming
  | @receive k rest b hcoming hfault hawaited hfinished hwork =>
      refine ⟨h.kept, h.takenUp, ?_, ?_⟩
      · obtain ⟨earlier, htasks, hreceived⟩ := h.received
        refine ⟨earlier ++ [k], ?_, ?_⟩
        · rw [htasks, hawaited, List.append_assoc, List.singleton_append]
        · intro j hj
          by_cases hjk : j = k
          · subst hjk
            exact ⟨b, hwork, Function.update_self _ _ _⟩
          · have hj : j ∈ earlier := by simpa [hjk] using hj
            obtain ⟨b', hwork', hb'⟩ := hreceived j hj
            exact ⟨b', hwork', (Function.update_of_ne hjk _ _).trans hb'⟩
      · intro f hf
        rw [hfault] at hf
        cases hf
  | @stop k rest f hcoming hfault hawaited hfinished hwork =>
      refine ⟨h.kept, h.takenUp, h.received, ?_⟩
      intro f' hf'
      cases hf'
      exact ⟨k, rest, hawaited, hwork⟩

theorem Sound.reaches (h : Sound tasks work s) (hreaches : Reaches workers work s s') :
    Sound tasks work s' := by
  induction hreaches with
  | refl => exact h
  | tail _ hstep ih => exact ih.step hstep

/-! ## Every run ends -/

/-- The number of things that are still to happen, at most. -/
def left (s : Pool κ β) : Nat :=
  3 * s.coming.length + 2 * s.queued.length + s.running.length + s.awaited.length +
    if s.fault.isNone then 1 else 0

theorem left_lt (hstep : Step workers work s s') : s'.left < s.left := by
  cases hstep with
  | @submit k rest hcoming =>
      simp only [left, hcoming, List.length_append, List.length_cons, List.length_nil]
      omega
  | @takeUp k hqueued hfree =>
      have hlength := List.length_erase_add_one hqueued
      simp only [left, List.length_cons]
      omega
  | @finish k hrunning =>
      have hlength := List.length_erase_add_one hrunning
      simp only [left]
      omega
  | @receive k rest b hcoming hfault hawaited hfinished hwork =>
      simp only [left, hawaited, List.length_cons]
      omega
  | @stop k rest f hcoming hfault hawaited hfinished hwork =>
      simp [left, hfault]

theorem wellFounded_step (workers : Nat) (work : (k : κ) → Except Fault (β k)) :
    WellFounded fun s' s : Pool κ β => Step workers work s s' :=
  Subrelation.wf left_lt (measure left).wf

/-- A pool that has a worker is done, or something can happen. -/
theorem Sound.progress (h : Sound tasks work s) (hworkers : 0 < workers) :
    s.Done ∨ ∃ s', Step workers work s s' := by
  cases hcoming : s.coming with
  | cons k rest => exact .inr ⟨_, .submit hcoming⟩
  | nil =>
      cases hrunning : s.running with
      | cons k rest => exact .inr ⟨_, .finish (hrunning ▸ List.mem_cons_self)⟩
      | nil =>
          cases hqueued : s.queued with
          | cons k rest =>
              have hfree : s.running.length < workers := by
                rw [hrunning]
                exact hworkers
              exact .inr ⟨_, .takeUp (hqueued ▸ List.mem_cons_self) hfree⟩
          | nil =>
              cases hawaited : s.awaited with
              | nil => exact .inl ⟨hcoming, hqueued, hrunning, .inl hawaited⟩
              | cons k rest =>
                  cases hfault : s.fault with
                  | some f => exact .inl ⟨hcoming, hqueued, hrunning, .inr (by rw [hfault]; rfl)⟩
                  | none =>
                      have hfinished : k ∈ s.finished := by
                        obtain ⟨earlier, htasks, -⟩ := h.received
                        have hkept := h.kept
                        rw [hcoming, hqueued, hrunning] at hkept
                        apply hkept.mem_iff.2
                        rw [htasks, hawaited]
                        exact List.mem_append_right _ List.mem_cons_self
                      cases hwork : work k with
                      | ok b => exact .inr ⟨_, .receive hcoming hfault hawaited hfinished hwork⟩
                      | error f => exact .inr ⟨_, .stop hcoming hfault hawaited hfinished hwork⟩

/-- Every run of a pool that has a worker can be gone on with until it is done. -/
theorem Sound.exists_done (h : Sound tasks work s) (hworkers : 0 < workers) :
    ∃ s', Reaches workers work s s' ∧ s'.Done := by
  induction s using (wellFounded_step workers work).induction with
  | _ s ih =>
      rcases h.progress hworkers with hdone | ⟨s₁, hstep⟩
      · exact ⟨s, .refl, hdone⟩
      · obtain ⟨s₂, hreaches, hdone⟩ := ih s₁ hstep (h.step hstep)
        exact ⟨s₂, .head hstep hreaches, hdone⟩

/-! ## What was received -/

omit [DecidableEq κ] in
/-- All tasks were run, and the fault met is the first one in the order of the tasks; without one, every
result was received. -/
theorem Sound.of_done (h : Sound tasks work s) (hdone : s.Done) :
    s.takenUp.Perm tasks ∧ s.fault = tasks.findSome? (fun k => faultOf? (work k)) ∧
      (s.fault = none → ∀ k ∈ tasks, ∃ b, work k = .ok b ∧ s.received k = some b) := by
  obtain ⟨hcoming, hqueued, hrunning, hawaited⟩ := hdone
  obtain ⟨earlier, htasks, hreceived⟩ := h.received
  have hkept := h.kept
  have htakenUp := h.takenUp
  rw [hrunning] at htakenUp
  rw [hcoming, hqueued, hrunning] at hkept
  have hearlier : earlier.findSome? (fun k => faultOf? (work k)) = none := by
    rw [List.findSome?_eq_none_iff]
    intro k hk
    obtain ⟨b, hb, -⟩ := hreceived k hk
    rw [hb]
    rfl
  refine ⟨htakenUp.trans hkept, ?_, ?_⟩
  · rw [htasks, List.findSome?_append, hearlier, Option.none_or]
    cases hfault : s.fault with
    | some f =>
        obtain ⟨k, rest, hrest, hwork⟩ := h.fault f hfault
        rw [hrest, List.findSome?_cons, hwork]
        rfl
    | none =>
        rw [hfault] at hawaited
        rw [hawaited.resolve_right (by simp)]
        rfl
  · intro hfault
    rw [hfault] at hawaited
    rw [htasks, hawaited.resolve_right (by simp), List.append_nil]
    exact hreceived

end Pool

end LineAtlas.Loading

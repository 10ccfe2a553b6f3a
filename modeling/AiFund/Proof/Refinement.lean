import AiFund.Library.Frame
import AiFund.Proof.LifeInvariants
import AiFund.Proof.QueueSteps
import Mathlib.Logic.Relation

/-!
# From transactions to lifecycle steps

`Takes e s s'` says that between two points of a session the lifecycle takes the step `e`, and how
the states written on the way follow one another.
-/

namespace AiFund

open UnitOfWork Rows

namespace Life

/-- What one write may do: statuses move along edges, and a run starts only with its lock. -/
structure Follows (a b : Life) : Prop where
  becomes : ∀ (r : Nat) (run : RunLife), a.runs[r]? = some run →
    ∃ run', b.runs[r]? = some run' ∧ run.Becomes run' True
  locked : ∀ (r : Nat) (run run' : RunLife) (covId : Nat), a.runs[r]? = some run →
    b.runs[r]? = some run' → run.status = .queued → run'.status = .running →
    run.locked = some covId → a.owner covId = some r

variable {a b c : Life} {r : Nat} {run : RunLife} {f : RunLife → RunLife}

theorem Follows.of_runs (h : b.runs = a.runs) : a.Follows b := by
  constructor
  · intro r run hrun
    exact ⟨run, h ▸ hrun, .refl⟩
  · intro r run run' covId hrun hrun' hqueued hrunning
    rw [h, hrun] at hrun'
    cases hrun'
    rw [hqueued] at hrunning
    cases hrunning

theorem Follows.refl (a : Life) : a.Follows a := .of_runs rfl

theorem Follows.of_append {more : List RunLife} (h : b.runs = a.runs ++ more) : a.Follows b := by
  constructor
  · intro r run hrun
    exact ⟨run, h ▸ getElem?_append_of_some hrun, .refl⟩
  · intro r run run' covId hrun hrun' hqueued hrunning
    rw [h, getElem?_append_of_some hrun] at hrun'
    cases hrun'
    rw [hqueued] at hrunning
    cases hrunning

/-- A write that moves one run along an edge. -/
theorem Follows.of_modify (hrun : a.runs[r]? = some run) (hf : run.Becomes (f run) True)
    (hlock : run.status = .queued → (f run).status = .running →
      ∀ covId, run.locked = some covId → a.owner covId = some r)
    (h : b.runs = a.runs.modify r f) : a.Follows b := by
  constructor
  · intro k old hk
    rw [h]
    obtain ⟨new, hnew, hbecomes⟩ := becomes_modify hk hrun hf
    exact ⟨new, hnew, hbecomes.coverageId, hbecomes.type, hbecomes.mutates,
      hbecomes.status.imp_right fun hedge => ⟨trivial, hedge.2⟩⟩
  · intro k old new covId hk hnew hqueued hrunning hlocked
    rw [h] at hnew
    obtain ⟨rfl, found, hfound, rfl⟩ | ⟨-, hold⟩ := getElem?_modify_cases hnew
    · obtain rfl : run = found := Option.some.inj (hrun.symm.trans hfound)
      obtain rfl : run = old := Option.some.inj (hrun.symm.trans hk)
      exact hlock hqueued hrunning covId hlocked
    · rw [hk] at hold
      cases hold
      rw [hqueued] at hrunning
      cases hrunning

/-- The write with which a run stops at a gate. -/
theorem Follows.stop (hrun : a.runs[r]? = some run) (hrunning : run.status = .running)
    (h : b.runs = a.runs.modify r fun run => { run with status := .waitingPm }) : a.Follows b := by
  refine .of_modify hrun ⟨rfl, rfl, rfl, .inr ⟨trivial, ?_⟩⟩ ?_ h
  · exact hrunning ▸ .of_entry .openGate rfl
  · intro hqueued
    rw [hrunning] at hqueued
    cases hqueued

/-- The lives that can be reached by admissible steps. -/
def Path (ok : Life → LifeEvent → Prop) : Life → Life → Prop :=
  Relation.ReflTransGen fun a b => ∃ e, ok a e ∧ LifeStep e a b

/-- What every admissible step preserves, a path preserves. -/
theorem Path.preserves {ok : Life → LifeEvent → Prop} {P : Life → Prop}
    (hstep : ∀ a b e, ok a e → LifeStep e a b → P a → P b) (hpath : Path ok a b)
    (ha : P a) : P b := by
  induction hpath with
  | refl => exact ha
  | tail _ hlast ih =>
      obtain ⟨e, hok, hlife⟩ := hlast
      exact hstep _ _ e hok hlife ih

theorem Path.mono {ok ok' : Life → LifeEvent → Prop} (h : ∀ a e, ok a e → ok' a e)
    (hpath : Path ok a b) : Path ok' a b := by
  induction hpath with
  | refl => exact .refl
  | tail _ hlast ih =>
      obtain ⟨e, hok, hstep⟩ := hlast
      exact ih.tail ⟨e, h _ e hok, hstep⟩

end Life

/-- The writes between two points of a session, as the lifecycle sees them. -/
abbrev LifeTrail (s s' : Session Db) : Prop := Trail (fun a b => a.life.Follows b.life) s s'

structure Takes (e : LifeEvent) (s s' : Session Db) : Prop where
  synced : Synced Db.life s'
  trail : LifeTrail s s'
  step : LifeStep e s.stored.life s'.stored.life

structure Refines (ok : Life → LifeEvent → Prop) (s s' : Session Db) : Prop where
  synced : Synced Db.life s'
  trail : LifeTrail s s'
  path : Life.Path ok s.stored.life s'.stored.life

variable {s s₁ s' : Session Db} {a b : Life} {e : LifeEvent} {ok : Life → LifeEvent → Prop}

/-- The lifecycle does not move. -/
abbrev Still (s s' : Session Db) : Prop := Moves Db.life Eq s s'

/-- One write, after which the store and the session agree on the lifecycle `b`. -/
structure Lands (b : Life) (s s' : Session Db) : Prop where
  written : s'.written = s.written ++ [s'.stored]
  stored : s'.stored.life = b
  loaded : s'.loaded.life = b

theorem Lands.synced (h : Lands b s s') : Synced Db.life s' := h.loaded.trans h.stored.symm

theorem Lands.trail (h : Lands b s s') (hfollows : s.stored.life.Follows b) : LifeTrail s s' := by
  refine ⟨[s'.stored], h.written, ?_, rfl⟩
  rw [List.isChain_pair, h.stored]
  exact hfollows

theorem Lands.takes (h : Lands b s s') (hfollows : s.stored.life.Follows b)
    (hstep : LifeStep e s.stored.life b) : Takes e s s' :=
  ⟨h.synced, h.trail hfollows, h.stored ▸ hstep⟩

theorem Lands.still (h : Lands b s s') (hb : s.stored.life = b) : Still s s' := by
  refine ⟨h.synced, [s'.stored], h.written, ?_, rfl⟩
  rw [List.isChain_pair, h.stored, hb]

theorem Lands.congr (h : Lands a s s') (hb : a = b) (hwritten : s.written = s₁.written) :
    Lands b s₁ s' :=
  ⟨hwritten ▸ h.written, hb ▸ h.stored, hb ▸ h.loaded⟩

theorem lands_flush {u : Unit} (h : Returns (flush : DbTxn Unit) s u s') :
    Lands s.loaded.life s s' := by
  obtain ⟨-, rfl⟩ := returns_flush.1 h
  exact ⟨rfl, rfl, rfl⟩

theorem lands_execute {g : Db → Db} {f : Life → Life} {u : Unit}
    (h : Returns (execute g : DbTxn Unit) s u s') (hs : Synced Db.life s)
    (hg : ∀ db, (g db).life = f db.life) : Lands (f s.stored.life) s s' := by
  obtain ⟨-, rfl⟩ := returns_execute.1 h
  refine ⟨rfl, hg _, ?_⟩
  rw [← hs]
  exact hg _

theorem Still.life_eq (h : Still s s') : s'.stored.life = s.stored.life := Trail.view_eq h.trail

theorem Still.lifeTrail (h : Still s s') : LifeTrail s s' := by
  refine Trail.mono (fun a b hab => ?_) h.trail
  exact .of_runs (congrArg Life.runs hab).symm

theorem Takes.after (h : Still s s₁) (h' : Takes e s₁ s') : Takes e s s' :=
  ⟨h'.synced, h.lifeTrail.trans h'.trail, h.life_eq ▸ h'.step⟩

theorem Takes.before (h : Takes e s s₁) (h' : Still s₁ s') : Takes e s s' :=
  ⟨h'.synced, h.trail.trans h'.lifeTrail, h'.life_eq ▸ h.step⟩

theorem Still.refines (h : Still s s') : Refines ok s s' :=
  ⟨h.synced, h.lifeTrail, h.life_eq ▸ .refl⟩

theorem Takes.refines (h : Takes e s s') (hok : ok s.stored.life e) : Refines ok s s' :=
  ⟨h.synced, h.trail, .single ⟨e, hok, h.step⟩⟩

theorem Refines.trans (h : Refines ok s s₁) (h' : Refines ok s₁ s') : Refines ok s s' :=
  ⟨h'.synced, h.trail.trans h'.trail, Relation.ReflTransGen.trans h.path h'.path⟩

theorem Refines.mono {ok' : Life → LifeEvent → Prop} (h : Refines ok s s')
    (hok : ∀ a e, ok a e → ok' a e) : Refines ok' s s' :=
  ⟨h.synced, h.trail, h.path.mono hok⟩

/-- A loop refines the lifecycle if every turn does. -/
theorem refines_forM {ρ : Type} {l : List ρ} {f : ρ → DbTxn PUnit} {u : PUnit}
    (hf : ∀ x s u s', Returns (f x) s u s' → Synced Db.life s → Refines ok s s')
    (h : Returns (l.forM f) s u s') (hs : Synced Db.life s) : Refines ok s s' := by
  induction l generalizing s with
  | nil =>
      rw [returns_forM_nil] at h
      subst h
      exact ⟨hs, .refl _ _, .refl⟩
  | cons x l ih =>
      obtain ⟨s₁, hx, hl⟩ := returns_forM_cons.1 h
      have hfirst := hf x _ _ _ hx hs
      exact hfirst.trans (ih hl hfirst.synced)

/-- A run that runs still runs when the lifecycle has not moved. -/
theorem Still.running (h : Still s s') (hs : Synced Db.life s) {r : Nat} {run : Run}
    (hrun : s.loaded.runs[r]? = some run) (hrunning : run.status = .running) :
    ∃ run', s'.loaded.runs[r]? = some run' ∧ run'.status = .running := by
  have hlife : s'.loaded.life = s.loaded.life := h.synced.trans (h.life_eq.trans hs.symm)
  have hruns : s'.loaded.runs.map Run.life = s.loaded.runs.map Run.life :=
    congrArg Life.runs hlife
  have hget : (s'.loaded.runs.map Run.life)[r]? = some run.life := by
    rw [hruns, List.getElem?_map, hrun]
    rfl
  rw [List.getElem?_map, Option.map_eq_some_iff] at hget
  obtain ⟨run', hrun', hlife'⟩ := hget
  exact ⟨run', hrun', (congrArg RunLife.status hlife').trans hrunning⟩

end AiFund

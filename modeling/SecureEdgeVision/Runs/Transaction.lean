import SecureEdgeVision.Runs.Custody
import SecureEdgeVision.Runs.Traced

/-! Units of work on a store. A session works on its own copy, only a commit that persists makes the
copy durable, and a unit of work rolls back what raised and closes its session in any case. -/
namespace Runs

variable {σ ε α : Type}

/-- What is done with a session, and whether it raised. -/
inductive SessionStep (σ : Type) where
  | opened (session : ℕ) (raises : Bool)
  | queried (session : ℕ) (raises : Bool)
  | wrote (session : ℕ) (copy : σ)
  | committed (session : ℕ) (persists raises : Bool)
  | rolledBack (session : ℕ) (raises : Bool)
  | closed (session : ℕ) (raises : Bool)

namespace SessionStep

/-- The step as a handling of its session. A session that could not be opened is none. -/
def handling? : SessionStep σ → Option Handling
  | opened session raises => if raises then none else some (.acquire session)
  | queried session _ => some (.use session)
  | wrote session _ => some (.use session)
  | committed session _ _ => some (.use session)
  | rolledBack session _ => some (.use session)
  | closed session _ => some (.release session)

def isOpening : SessionStep σ → Bool
  | opened _ raises => !raises
  | _ => false

def isCommit : SessionStep σ → Bool
  | committed _ _ _ => true
  | _ => false

def isRollback : SessionStep σ → Bool
  | rolledBack _ _ => true
  | _ => false

end SessionStep

/-- What is durable, and the copy of the session that is open. -/
structure Store (σ : Type) where
  durable : σ
  copy : Option σ

namespace Store

def step (store : Store σ) : SessionStep σ → Store σ
  | .opened _ raises => if raises then store else ⟨store.durable, some store.durable⟩
  | .queried _ _ => store
  | .wrote _ copy => ⟨store.durable, some copy⟩
  | .committed _ persists _ =>
    if persists then ⟨store.copy.getD store.durable, store.copy⟩ else store
  | .rolledBack _ _ => ⟨store.durable, some store.durable⟩
  | .closed _ _ => ⟨store.durable, none⟩

def after (store : Store σ) (steps : List (SessionStep σ)) : Store σ := steps.foldl step store

@[simp] theorem after_nil (store : Store σ) : store.after [] = store := rfl

@[simp] theorem after_cons (store : Store σ) (s : SessionStep σ) (steps : List (SessionStep σ)) :
    store.after (s :: steps) = (store.step s).after steps := rfl

@[simp] theorem after_append (store : Store σ) (before steps : List (SessionStep σ)) :
    store.after (before ++ steps) = (store.after before).after steps :=
  List.foldl_append

end Store

/-- Whether opening, rolling back and closing a session raise. -/
structure SessionMet where
  openRaises : Bool
  rollbackRaises : Bool
  closeRaises : Bool
deriving DecidableEq

/-- What a unit of work raises in place of what its session raised. -/
structure Raising (ε : Type) where
  opening : ε
  rollingBack : ε → ε
  closing : ε

/-- The result of a unit of work from that of its body. -/
def SessionMet.settle (met : SessionMet) (raising : Raising ε) (result : Except ε α) :
    Except ε α :=
  if met.openRaises then .error raising.opening
  else if met.closeRaises then .error raising.closing
  else
    match result with
    | .ok a => .ok a
    | .error e => .error (if met.rollbackRaises then raising.rollingBack e else e)

/-- What follows the body: a rollback if it raised, and the close. -/
def SessionMet.leave (met : SessionMet) (session : ℕ) (raised : Bool) : List (SessionStep σ) :=
  (if raised then [.rolledBack session met.rollbackRaises] else []) ++
    [.closed session met.closeRaises]

/-- Open a session, run the body, roll back if it raises, and close the session. -/
def unitOfWork (raising : Raising ε) (met : SessionMet) (session : ℕ)
    (body : Traced (SessionStep σ) ε α) : Traced (SessionStep σ) ε α :=
  ⟨.opened session met.openRaises ::
    (if met.openRaises then [] else body.calls ++ met.leave session (!body.result.isOk)),
    met.settle raising body.result⟩

/-- The body queries and writes in its session and commits at most once, and so takes what was
durable to what is durable after it. -/
structure Within (session : ℕ) (durable after : σ) (steps : List (SessionStep σ)) : Prop where
  uses : ∀ s ∈ steps, s.handling? = some (.use session)
  rollbacks : steps.countP SessionStep.isRollback = 0
  commits : steps.countP SessionStep.isCommit ≤ 1
  durable : (Store.after ⟨durable, some durable⟩ steps).durable = after

section Within
variable {session : ℕ} {durable after : σ}

theorem within_nil : Within session durable durable [] :=
  ⟨by simp, rfl, Nat.zero_le 1, rfl⟩

theorem Within.query {steps : List (SessionStep σ)} (h : Within session durable after steps)
    (raises : Bool) : Within session durable after (.queried session raises :: steps) where
  uses s hs := by
    rcases List.mem_cons.mp hs with rfl | hs
    · rfl
    · exact h.uses s hs
  rollbacks := by simpa [SessionStep.isRollback] using h.rollbacks
  commits := by simpa [SessionStep.isCommit] using h.commits
  durable := h.durable

/-- A write that is not committed. -/
theorem within_wrote (copy : σ) : Within session durable durable [.wrote session copy] :=
  ⟨by simp [SessionStep.handling?], rfl, Nat.zero_le 1, rfl⟩

/-- A commit that did not persist. -/
theorem within_lost (raises : Bool) : Within session durable durable
    [.committed session false raises] :=
  ⟨by simp [SessionStep.handling?], rfl, Nat.le_refl _, rfl⟩

/-- A write and its commit. -/
theorem within_saved (copy : σ) (persists raises : Bool) :
    Within session durable (if persists then copy else durable)
      [.wrote session copy, .committed session persists raises] where
  uses s hs := by
    simp only [List.mem_cons, List.not_mem_nil, or_false] at hs
    rcases hs with rfl | rfl <;> rfl
  rollbacks := rfl
  commits := Nat.le_refl _
  durable := by cases persists <;> rfl

/-- One acquisition and one release, and uses in between, are in custody. -/
theorem follow_uses {handlings : List Handling} (h : ∀ e ∈ handlings, e = .use session) :
    Custody.follow ⟨session + 1, some session⟩ handlings = some ⟨session + 1, some session⟩ := by
  induction handlings with
  | nil => rfl
  | cons e handlings ih =>
    have he := h e List.mem_cons_self
    rw [he]
    simpa [Custody.follow, Custody.step] using ih fun e he => h e (List.mem_cons_of_mem _ he)

/-- What is known of the steps of an operation that returned or raised: its sessions are in custody,
what is durable after it, that it commits at most once, and that it rolls back if it raised in an
open session that could be closed, and not if it returned. -/
structure Settles (session : ℕ) (durable after : σ) (ok : Bool) (steps : List (SessionStep σ)) :
    Prop where
  custody : Custody.follow ⟨session, none⟩ (steps.filterMap SessionStep.handling?) =
    some ⟨session + steps.countP SessionStep.isOpening, none⟩
  store : Store.after ⟨durable, none⟩ steps = ⟨after, none⟩
  commits : steps.countP SessionStep.isCommit ≤ 1
  rollbacks : steps.countP SessionStep.isRollback ≤ 1
  returned : ok = true → steps.countP SessionStep.isRollback = 0
  raised : ok = false → 0 < steps.countP SessionStep.isOpening →
    (∀ k, .closed k true ∉ steps) → steps.countP SessionStep.isRollback = 1

/-- What leaving a session does, whether its body raised or not. -/
theorem leave_spec (session : ℕ) (met : SessionMet) (raised : Bool) (durable : σ)
    (copy : Option σ) :
    let steps := met.leave session raised
    Custody.follow ⟨session + 1, some session⟩ (steps.filterMap SessionStep.handling?) =
        some ⟨session + 1, none⟩ ∧
      Store.after ⟨durable, copy⟩ steps = ⟨durable, none⟩ ∧
      steps.countP SessionStep.isOpening = 0 ∧
      steps.countP SessionStep.isCommit = 0 ∧
      steps.countP SessionStep.isRollback = if raised then 1 else 0 := by
  cases raised <;> simp [SessionMet.leave, SessionStep.handling?, Custody.follow, Custody.step,
    Store.step, SessionStep.isOpening, SessionStep.isCommit, SessionStep.isRollback,
    List.countP_cons]

theorem settle_isOk (raising : Raising ε) (met : SessionMet) (result : Except ε α) :
    (met.settle raising result).isOk =
      (!met.openRaises && !met.closeRaises && result.isOk) := by
  unfold SessionMet.settle
  cases met.openRaises <;> cases met.closeRaises <;> cases result <;> rfl

/-- A session that ends without an exception has the result of its body. -/
theorem result_of_settle {raising : Raising ε} {met : SessionMet} {result : Except ε α} {a : α}
    (h : met.settle raising result = .ok a) : result = .ok a := by
  unfold SessionMet.settle at h
  split_ifs at h <;> cases result <;> simp_all

theorem settle_of_openRaises (raising : Raising ε) {met : SessionMet}
    (hopen : met.openRaises = true) (result : Except ε α) :
    met.settle raising result = .error raising.opening := by
  unfold SessionMet.settle
  rw [if_pos hopen]

/-- An operation that opens no session. -/
theorem settles_nothing (session : ℕ) (durable : σ) (ok : Bool) :
    Settles session durable durable ok [] := by
  constructor <;> simp [Custody.follow]

/-- The session could not be opened. -/
theorem settles_unopened (raising : Raising ε) {met : SessionMet} (hopen : met.openRaises = true)
    (session : ℕ) (durable : σ) (body : Traced (SessionStep σ) ε α) :
    Settles session durable durable false (unitOfWork raising met session body).calls := by
  have hsteps : (unitOfWork raising met session body).calls = [.opened session true] := by
    simp [unitOfWork, hopen]
  rw [hsteps]
  constructor <;> simp [SessionStep.handling?, Custody.follow, Store.step, SessionStep.isOpening,
    SessionStep.isCommit, SessionStep.isRollback]

/-- A body that stays within its session makes a unit of work that settles. -/
theorem unitOfWork_settles (raising : Raising ε) {met : SessionMet}
    (hopen : met.openRaises = false) {body : Traced (SessionStep σ) ε α}
    (h : Within session durable after body.calls) :
    Settles session durable after (met.settle raising body.result).isOk
      (unitOfWork raising met session body).calls := by
  have huses : ∀ e ∈ body.calls.filterMap SessionStep.handling?, e = .use session := by
    intro e he
    obtain ⟨s, hs, hhandling⟩ := List.mem_filterMap.mp he
    rw [h.uses s hs] at hhandling
    exact (Option.some.inj hhandling).symm
  have hopenings : body.calls.countP SessionStep.isOpening = 0 := by
    rw [List.countP_eq_zero]
    intro s hs hopening
    have huse := h.uses s hs
    cases s <;> simp [SessionStep.handling?, SessionStep.isOpening] at huse hopening
  have hclosings : ∀ k raises, .closed k raises ∉ body.calls := by
    intro k raises hs
    have huse := h.uses _ hs
    simp [SessionStep.handling?] at huse
  have hcustody := follow_uses huses
  obtain ⟨copy, hstore⟩ : ∃ copy, Store.after ⟨durable, some durable⟩ body.calls =
      ⟨after, copy⟩ := ⟨_, by rw [← h.durable]⟩
  obtain ⟨hleave, hclosed, hleft, hcommits, hrollbacks⟩ := leave_spec session met
    (!body.result.isOk) after copy
  have hsteps : (unitOfWork raising met session body).calls =
      .opened session false :: (body.calls ++ met.leave session (!body.result.isOk)) := by
    simp [unitOfWork, hopen]
  have hrolled : (unitOfWork raising met session body).calls.countP SessionStep.isRollback =
      if body.result.isOk then 0 else 1 := by
    rw [hsteps, List.countP_cons_of_neg (by simp [SessionStep.isRollback]), List.countP_append,
      h.rollbacks, hrollbacks]
    cases body.result.isOk <;> rfl
  have hreturned : (met.settle raising body.result).isOk =
      (!met.closeRaises && body.result.isOk) := by
    rw [settle_isOk, hopen]
    rfl
  constructor
  · have hopened : Custody.follow ⟨session, none⟩ (.acquire session ::
        body.calls.filterMap SessionStep.handling?) = some ⟨session + 1, some session⟩ := by
      simpa [Custody.follow, Custody.step] using hcustody
    have hhandling : (SessionStep.opened session false : SessionStep σ).handling? =
        some (.acquire session) := rfl
    rw [hsteps, List.filterMap_cons_some hhandling, List.filterMap_append, ← List.cons_append,
      Custody.follow_append, hopened, List.countP_cons_of_pos (by simp [SessionStep.isOpening]),
      List.countP_append, hopenings, hleft]
    exact hleave
  · rw [hsteps, Store.after_cons, Store.after_append]
    show Store.after (Store.after ⟨durable, some durable⟩ body.calls) _ = _
    rw [hstore]
    exact hclosed
  · rw [hsteps, List.countP_cons_of_neg (by simp [SessionStep.isCommit]), List.countP_append,
      hcommits]
    exact h.commits
  · rw [hrolled]
    split_ifs <;> omega
  · intro hok
    rw [hreturned] at hok
    simp [hrolled, (Bool.and_eq_true_iff.mp hok).2]
  · intro hfailed _ hnotRaised
    have hclose : met.closeRaises = false := by
      have hnot : .closed session true ∉ body.calls ∧ met.closeRaises = false := by
        simpa [hsteps, SessionMet.leave] using hnotRaised session
      exact hnot.2
    rw [hreturned, hclose] at hfailed
    have hbody : body.result.isOk = false := by simpa using hfailed
    simp [hrolled, hbody]

end Within

end Runs

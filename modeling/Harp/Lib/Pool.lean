import Harp.Lib.Program
import Mathlib.Logic.Function.Basic

/-
  Programs that run interleaved over one state.

  A pool holds a program for each thread and the state they share. A step lets one thread
  perform its next operation; a schedule is any list of steps. A step may come with a draw,
  an input from outside such as the time or a random number.

  `Related.runOn` compares such a run, draw by draw, with a run of a related program.
  `Isolated` is a way to look at the state for each thread that the other threads cannot
  change. `Isolated.alone_eq` says that a thread then runs in the pool as it runs alone on
  its own draws.

  `Pool.trace` lists what the threads performed, in order. `Pool.path` says that what one
  thread performed is a path of its program, and `Pool.appended` that a part of the state
  which every operation only appends to holds what the trace appended. `related_run` compares
  two pools on one schedule.
-/

namespace Prog

variable {Op : Type} {Res : Op → Type} {α β σ δ ι τ : Type}

/-- The next operation of a program, if it has one. -/
def step (h : Handler Op Res σ) : Prog Op Res α × σ → Prog Op Res α × σ
  | (ret a, s) => (ret a, s)
  | (call o k, s) => (k (h o s).1, (h o s).2)

/-- Running a program alone on a list of draws. -/
def runOn (h : δ → Handler Op Res σ) (ds : List δ) (c : Prog Op Res α × σ) : Prog Op Res α × σ :=
  ds.foldl (fun c d => step (h d) c) c

theorem runOn_cons (h : δ → Handler Op Res σ) (d : δ) (ds : List δ) (c : Prog Op Res α × σ) :
    runOn h (d :: ds) c = runOn h ds (step (h d) c) := rfl

theorem runOn_ret (h : δ → Handler Op Res σ) (ds : List δ) (a : α) (s : σ) :
    runOn h ds (ret a, s) = (ret a, s) := by
  induction ds with
  | nil => rfl
  | cons d ds ih => exact ih

/-- The rule of two runs: handlers that answer related operations alike, and keep the relation `S`
    of their states, take related programs to related ends. One run steps through a list of
    draws that suffices, the other runs to its end. -/
theorem Related.runOn {R : Op → Op → Prop} {A : (o o' : Op) → Res o → Res o' → Prop}
    {V : α → β → Prop} {S : σ → τ → Prop} {h : δ → Handler Op Res σ} {h' : Handler Op Res τ}
    (hS : ∀ d o o' s t, R o o' → S s t →
      A o o' (h d o s).1 (h' o' t).1 ∧ S (h d o s).2 (h' o' t).2)
    {p : Prog Op Res α} {q : Prog Op Res β} (hpq : Related R A V p q) {s : σ} {t : τ}
    (hst : S s t) {ds : List δ} {a : α} (ha : (Prog.runOn h ds (p, s)).1 = ret a) :
    V a (run h' q t).1 ∧ S (Prog.runOn h ds (p, s)).2 (run h' q t).2 := by
  induction p generalizing q s t ds with
  | ret a' =>
    cases q with
    | call o' k' => exact hpq.elim
    | ret b =>
      rw [runOn_ret] at ha ⊢
      obtain rfl := Prog.ret.inj ha
      exact ⟨hpq, hst⟩
  | call o k ih =>
    cases q with
    | ret b => exact hpq.elim
    | call o' k' =>
      cases ds with
      | nil => cases ha
      | cons d ds =>
        obtain ⟨hans, hst'⟩ := hS d o o' s t hpq.1 hst
        exact ih _ (hpq.2 _ _ hans) hst' ha

/-- What a step performs, with its answer. -/
def performed (h : Handler Op Res σ) : Prog Op Res α × σ → List ((o : Op) × Res o)
  | (ret _, _) => []
  | (call o _, s) => [⟨o, (h o s).1⟩]

/-- From `p`, by the operations of the list and their answers, to `q`. -/
inductive Path : Prog Op Res α → List ((o : Op) × Res o) → Prog Op Res α → Prop
  | nil (p : Prog Op Res α) : Path p [] p
  | call {o : Op} {k : Res o → Prog Op Res α} (r : Res o) {tr : List ((o : Op) × Res o)}
      {q : Prog Op Res α} (h : Path (k r) tr q) : Path (call o k) (⟨o, r⟩ :: tr) q

@[simp] theorem path_ret {a : α} {tr : List ((o : Op) × Res o)} {q : Prog Op Res α} :
    Path (ret a) tr q ↔ tr = [] ∧ q = ret a := by
  constructor
  · intro h
    cases h
    exact ⟨rfl, rfl⟩
  · rintro ⟨rfl, rfl⟩
    exact .nil _

/-- A path stands still, or performs the next operation. -/
theorem path_call {o : Op} {k : Res o → Prog Op Res α} {tr : List ((o : Op) × Res o)}
    {q : Prog Op Res α} : Path (call o k) tr q ↔
      (tr = [] ∧ q = call o k) ∨ ∃ r tr', tr = ⟨o, r⟩ :: tr' ∧ Path (k r) tr' q := by
  constructor
  · intro h
    cases h with
    | nil => exact .inl ⟨rfl, rfl⟩
    | call r h => exact .inr ⟨r, _, rfl, h⟩
  · rintro (⟨rfl, rfl⟩ | ⟨r, tr', rfl, h⟩)
    · exact .nil _
    · exact .call r h

/-- A path to the end performs the next operation. -/
theorem path_call_end {o : Op} {k : Res o → Prog Op Res α} {tr : List ((o : Op) × Res o)} {a : α}
    (h : Path (call o k) tr (ret a)) : ∃ r tr', tr = ⟨o, r⟩ :: tr' ∧ Path (k r) tr' (ret a) := by
  rcases path_call.mp h with ⟨-, hret⟩ | hnext
  · cases hret
  · exact hnext

/-- A whole run is a path. -/
theorem path_run (h : Handler Op Res σ) (p : Prog Op Res α) (s : σ) :
    Path p (trace h p s) (ret (run h p s).1) := by
  induction p generalizing s with
  | ret a => exact .nil _
  | call o k ih => exact .call _ (ih _ _)

/-- A path to the end of a sequence goes through the end of its first part. -/
theorem path_bind_end {p : Prog Op Res α} {f : α → Prog Op Res β}
    {tr : List ((o : Op) × Res o)} {b : β} (h : Path (p >>= f) tr (ret b)) :
    ∃ a tr₁ tr₂, tr = tr₁ ++ tr₂ ∧ Path p tr₁ (ret a) ∧ Path (f a) tr₂ (ret b) := by
  induction p generalizing tr with
  | ret a => exact ⟨a, [], tr, rfl, .nil _, h⟩
  | call o k ih =>
    obtain ⟨r, tr', rfl, hrest⟩ := path_call_end h
    obtain ⟨a, tr₁, tr₂, rfl, hfirst, hsecond⟩ := ih r hrest
    exact ⟨a, ⟨o, r⟩ :: tr₁, tr₂, rfl, .call r hfirst, hsecond⟩

/-- A path of a program that returns after one operation. -/
theorem path_call_ret {o : Op} {f : Res o → α} {tr : List ((o : Op) × Res o)}
    {q : Prog Op Res α} : Path (call o fun r => ret (f r)) tr q ↔
      (tr = [] ∧ q = call o fun r => ret (f r)) ∨ ∃ r, tr = [⟨o, r⟩] ∧ q = ret (f r) := by
  rw [path_call]
  refine or_congr Iff.rfl (exists_congr fun r => ?_)
  constructor
  · rintro ⟨tr', rfl, h⟩
    obtain ⟨rfl, rfl⟩ := path_ret.mp h
    exact ⟨rfl, rfl⟩
  · rintro ⟨rfl, rfl⟩
    exact ⟨[], rfl, .nil _⟩

/-- A path of a program whose value is mapped is a path of the program. -/
theorem Path.of_map {f : α → β} {p : Prog Op Res α} {tr : List ((o : Op) × Res o)}
    {q : Prog Op Res β} (h : Path (p >>= fun a => ret (f a)) tr q) :
    ∃ p', Path p tr p' ∧ q = p' >>= fun a => ret (f a) := by
  induction p generalizing tr with
  | ret a =>
    obtain ⟨rfl, rfl⟩ := path_ret.mp h
    exact ⟨ret a, .nil _, rfl⟩
  | call o k ih =>
    rcases path_call.mp h with ⟨rfl, rfl⟩ | ⟨r, tr', rfl, h'⟩
    · exact ⟨Prog.call o k, .nil _, rfl⟩
    · obtain ⟨p', hp, rfl⟩ := ih r h'
      exact ⟨p', .call r hp, rfl⟩

/-- The value of a program that has finished. -/
def result : Prog Op Res α → Option α
  | ret a => some a
  | call _ _ => none

theorem result_map (f : α → β) (p : Prog Op Res α) :
    (p >>= fun a => ret (f a)).result = p.result.map f := by
  cases p with
  | ret a => rfl
  | call o k => rfl

/-- Related programs have finished together, with related values. -/
theorem Related.result {R : Op → Op → Prop} {A : (o o' : Op) → Res o → Res o' → Prop}
    {V : α → β → Prop} {p : Prog Op Res α} {q : Prog Op Res β} (h : Related R A V p q) :
    Option.Rel V p.result q.result := by
  cases p with
  | ret a =>
    cases q with
    | ret b => exact .some h
    | call o k => exact h.elim
  | call o k =>
    cases q with
    | ret b => exact h.elim
    | call o' k' => exact .none

/-- A step in front of a path. -/
theorem Path.step {h : Handler Op Res σ} {p q : Prog Op Res α} {s : σ}
    {tr : List ((o : Op) × Res o)} (hp : Path (Prog.step h (p, s)).1 tr q) :
    Path p (performed h (p, s) ++ tr) q := by
  cases p with
  | ret a => exact hp
  | call o k => exact .call _ hp

/-- A path with answers as assumed keeps to what its program may do. -/
theorem Path.meets {P : Op → Prop} {A : (o : Op) → Res o → Prop} {Q : α → Prop}
    {p q : Prog Op Res α} {tr : List ((o : Op) × Res o)} (hp : Path p tr q) (h : Meets P A Q p)
    (hA : ∀ x ∈ tr, A x.1 x.2) : ∀ x ∈ tr, P x.1 := by
  induction hp with
  | nil => exact fun x hx => absurd hx List.not_mem_nil
  | call r _ ih =>
    obtain ⟨hr, hrest⟩ := List.forall_mem_cons.mp hA
    exact List.forall_mem_cons.mpr ⟨h.1, ih (h.2 r hr) hrest⟩

/-- A program that has ended, on answers as assumed, has returned what it should. -/
theorem Path.returns {P : Op → Prop} {A : (o : Op) → Res o → Prop} {Q : α → Prop}
    {p : Prog Op Res α} {tr : List ((o : Op) × Res o)} {a : α} (hp : Path p tr (ret a))
    (h : Meets P A Q p) (hA : ∀ x ∈ tr, A x.1 x.2) : Q a := by
  generalize hq : ret a = q at hp
  induction hp with
  | nil =>
    subst hq
    exact h
  | call r _ ih =>
    obtain ⟨hr, hrest⟩ := List.forall_mem_cons.mp hA
    exact ih (h.2 r hr) hrest hq

/-- What a program may do, it may do after a step. -/
theorem Meets.step {P : Op → Prop} {Q : α → Prop} {h : Handler Op Res σ} {p : Prog Op Res α}
    (hp : Meets P (fun _ _ => True) Q p) (s : σ) :
    Meets P (fun _ _ => True) Q (Prog.step h (p, s)).1 := by
  cases p with
  | ret a => exact hp
  | call o k => exact hp.2 _ trivial

end Prog

open Prog

/-- The programs of the threads, and the state they share. -/
structure Pool (ι : Type) (Op : Type) (Res : Op → Type) (α σ : Type) where
  threads : ι → Prog Op Res α
  state : σ

namespace Pool

/-! ## Isolation -/

section Isolation

variable {Op : Type} {Res : Op → Type} {α σ δ ι τ : Type} (h : δ → Handler Op Res σ)

/-- `view i` shows thread `i` all that it can see of the state, and nothing that the operations
    of the other threads change. -/
structure Isolated (P : ι → Op → Prop) (view : ι → σ → τ) : Prop where
  own : ∀ i d o s s', P i o → view i s = view i s' →
    (h d o s).1 = (h d o s').1 ∧ view i (h d o s).2 = view i (h d o s').2
  other : ∀ i j d o s, i ≠ j → P j o → view i (h d o s).2 = view i s

variable {h} {P : ι → Op → Prop} {view : ι → σ → τ}

/-- A step of thread `i` is the same step on every state that looks the same to it. -/
theorem Isolated.step_own (hv : Isolated h P view) {i : ι} {p : Prog Op Res α}
    (hp : Prog.Meets (P i) (fun _ _ => True) (fun _ => True) p) (d : δ) {s s' : σ}
    (hs : view i s = view i s') :
    (Prog.step (h d) (p, s)).1 = (Prog.step (h d) (p, s')).1 ∧
      view i (Prog.step (h d) (p, s)).2 = view i (Prog.step (h d) (p, s')).2 := by
  cases p with
  | ret a => exact ⟨rfl, hs⟩
  | call o k =>
    obtain ⟨ha, hview⟩ := hv.own i d o s s' hp.1 hs
    exact ⟨congrArg k ha, hview⟩

/-- A step of another thread is invisible. -/
theorem Isolated.step_other (hv : Isolated h P view) {i j : ι} (hij : i ≠ j)
    {p : Prog Op Res α} (hp : Prog.Meets (P j) (fun _ _ => True) (fun _ => True) p) (d : δ)
    (s : σ) : view i (Prog.step (h d) (p, s)).2 = view i s := by
  cases p with
  | ret a => rfl
  | call o k => exact hv.other i j d o s hij hp.1

end Isolation

/-! ## Schedules -/

variable {Op : Type} {Res : Op → Type} {α σ δ ι τ : Type} [DecidableEq ι]
variable (h : δ → Handler Op Res σ)

/-- Thread `x.1` performs its next operation with the draw `x.2`. -/
def step (p : Pool ι Op Res α σ) (x : ι × δ) : Pool ι Op Res α σ where
  threads := Function.update p.threads x.1 (Prog.step (h x.2) (p.threads x.1, p.state)).1
  state := (Prog.step (h x.2) (p.threads x.1, p.state)).2

def run (schedule : List (ι × δ)) (p : Pool ι Op Res α σ) : Pool ι Op Res α σ :=
  schedule.foldl (step h) p

theorem run_cons (x : ι × δ) (xs : List (ι × δ)) (p : Pool ι Op Res α σ) :
    run h (x :: xs) p = run h xs (step h p x) := rfl

@[simp] theorem step_threads_self (p : Pool ι Op Res α σ) (x : ι × δ) :
    (step h p x).threads x.1 = (Prog.step (h x.2) (p.threads x.1, p.state)).1 :=
  Function.update_self ..

theorem step_threads_ne (p : Pool ι Op Res α σ) {x : ι × δ} {i : ι} (hi : i ≠ x.1) :
    (step h p x).threads i = p.threads i := Function.update_of_ne hi ..

/-- The draws of one thread. -/
def drawsOf (i : ι) (schedule : List (ι × δ)) : List δ :=
  schedule.filterMap fun x => if x.1 = i then some x.2 else none

theorem drawsOf_cons_self (i : ι) (d : δ) (xs : List (ι × δ)) :
    drawsOf i ((i, d) :: xs) = d :: drawsOf i xs := by simp [drawsOf]

theorem drawsOf_cons_ne {i j : ι} (hij : j ≠ i) (d : δ) (xs : List (ι × δ)) :
    drawsOf i ((j, d) :: xs) = drawsOf i xs := by simp [drawsOf, hij]

/-! ## What the threads perform -/

/-- What the steps of a schedule perform, and by which threads. -/
def trace : List (ι × δ) → Pool ι Op Res α σ → List (ι × ((o : Op) × Res o))
  | [], _ => []
  | x :: xs, p => (performed (h x.2) (p.threads x.1, p.state)).map (Prod.mk x.1) ++
      trace xs (step h p x)

/-- The part of one thread. -/
def own (i : ι) (tr : List (ι × ((o : Op) × Res o))) : List ((o : Op) × Res o) :=
  tr.filterMap fun y => if y.1 = i then some y.2 else none

theorem own_append (i : ι) (xs ys : List (ι × ((o : Op) × Res o))) :
    own i (xs ++ ys) = own i xs ++ own i ys := List.filterMap_append

theorem own_map_self (i : ι) (ops : List ((o : Op) × Res o)) :
    own i (ops.map (Prod.mk i)) = ops := by
  have hown : (fun x : (o : Op) × Res o => if i = i then some x else none) = some :=
    funext fun _ => if_pos rfl
  rw [own, List.filterMap_map]
  exact (congrArg (ops.filterMap ·) hown).trans List.filterMap_some

theorem own_map_ne {i j : ι} (hij : j ≠ i) (ops : List ((o : Op) × Res o)) :
    own i (ops.map (Prod.mk j)) = [] := by
  rw [own, List.filterMap_map, List.filterMap_eq_nil_iff]
  exact fun _ _ => if_neg hij

theorem run_append (xs ys : List (ι × δ)) (p : Pool ι Op Res α σ) :
    run h (xs ++ ys) p = run h ys (run h xs p) := List.foldl_append

theorem trace_append (xs ys : List (ι × δ)) (p : Pool ι Op Res α σ) :
    trace h (xs ++ ys) p = trace h xs p ++ trace h ys (run h xs p) := by
  induction xs generalizing p with
  | nil => rfl
  | cons x xs ih => rw [List.cons_append, trace, trace, ih, List.append_assoc, run_cons]

/-- What a trace lists was performed by one of its steps. -/
theorem exists_moment {xs : List (ι × δ)} {p : Pool ι Op Res α σ}
    {y : ι × ((o : Op) × Res o)} (hy : y ∈ trace h xs p) :
    ∃ pre d, pre ++ [(y.1, d)] <+: xs ∧ y.2.2 = (h d y.2.1 (run h pre p).state).1 := by
  induction xs generalizing p with
  | nil => exact absurd hy List.not_mem_nil
  | cons x xs ih =>
    rcases List.mem_append.mp hy with hy | hy
    · obtain ⟨op, hop, rfl⟩ := List.mem_map.mp hy
      refine ⟨[], x.2, List.prefix_append [x] xs, ?_⟩
      cases ht : p.threads x.1 with
      | ret a =>
        rw [ht] at hop
        exact absurd hop List.not_mem_nil
      | call o k =>
        rw [ht] at hop
        obtain rfl := List.mem_singleton.mp hop
        rfl
    · obtain ⟨pre, d, hpre, hanswer⟩ := ih hy
      exact ⟨x :: pre, d, List.cons_prefix_cons.mpr ⟨rfl, hpre⟩, hanswer⟩

/-- What one thread performs is a path of its program, whatever the others do. -/
theorem path (i : ι) (xs : List (ι × δ)) (p : Pool ι Op Res α σ) :
    Path (p.threads i) (own i (trace h xs p)) ((run h xs p).threads i) := by
  induction xs generalizing p with
  | nil => exact .nil _
  | cons x xs ih =>
    have hrest := ih (step h p x)
    rw [run_cons, trace, own_append]
    by_cases hx : x.1 = i
    · subst hx
      rw [step_threads_self] at hrest
      rw [own_map_self]
      exact hrest.step
    · rw [step_threads_ne h p (Ne.symm hx)] at hrest
      rw [own_map_ne hx]
      exact hrest

theorem mem_of_own {i : ι} {tr : List (ι × ((o : Op) × Res o))} {x : (o : Op) × Res o}
    (hx : x ∈ own i tr) : (i, x) ∈ tr := by
  obtain ⟨y, hy, heq⟩ := List.mem_filterMap.mp hx
  split at heq
  case isTrue hi =>
    obtain rfl := Option.some.inj heq
    rw [← hi]
    exact hy
  case isFalse => cases heq

theorem own_of_mem {tr : List (ι × ((o : Op) × Res o))} {y : ι × ((o : Op) × Res o)}
    (hy : y ∈ tr) : y.2 ∈ own y.1 tr :=
  List.mem_filterMap.mpr ⟨y, hy, if_pos rfl⟩

/-- A thread that has not finished has performed an operation in each of its steps. -/
theorem finished_or_length (i : ι) (xs : List (ι × δ)) (p : Pool ι Op Res α σ) :
    (∃ a, (run h xs p).threads i = ret a) ∨
      (own i (trace h xs p)).length = (drawsOf i xs).length := by
  induction xs generalizing p with
  | nil => exact .inr rfl
  | cons x xs ih =>
    cases hp : p.threads i with
    | ret a =>
      have hpath := path h i (x :: xs) p
      rw [hp] at hpath
      exact .inl ⟨a, (path_ret.mp hpath).2⟩
    | call o k =>
      rw [run_cons]
      rcases ih (step h p x) with hret | hlen
      · exact .inl hret
      · right
        obtain ⟨j, d⟩ := x
        rw [trace, own_append, List.length_append, hlen]
        by_cases hj : j = i
        · subst hj
          rw [own_map_self, drawsOf_cons_self, hp, List.length_cons, Nat.add_comm]
          rfl
        · rw [own_map_ne hj, drawsOf_cons_ne hj, List.length_nil, Nat.zero_add]

/-- A schedule leaves a thread out, or has a first step of it. -/
theorem exists_first (i : ι) (xs : List (ι × δ)) :
    (∀ x ∈ xs, x.1 ≠ i) ∨ ∃ pre d post, xs = pre ++ (i, d) :: post ∧ ∀ x ∈ pre, x.1 ≠ i := by
  induction xs with
  | nil => exact .inl fun x hx => absurd hx List.not_mem_nil
  | cons y ys ih =>
    by_cases hy : y.1 = i
    · exact .inr ⟨[], y.2, ys, by rw [← hy]; rfl, fun x hx => absurd hx List.not_mem_nil⟩
    · rcases ih with hnever | ⟨pre, d, post, rfl, hpre⟩
      · exact .inl (List.forall_mem_cons.mpr ⟨hy, hnever⟩)
      · exact .inr ⟨y :: pre, d, post, rfl, List.forall_mem_cons.mpr ⟨hy, hpre⟩⟩

/-- A thread that is left out performs nothing. -/
theorem own_of_never {i : ι} {xs : List (ι × δ)} (hxs : ∀ x ∈ xs, x.1 ≠ i)
    (p : Pool ι Op Res α σ) : own i (trace h xs p) = [] := by
  induction xs generalizing p with
  | nil => rfl
  | cons x xs ih =>
    obtain ⟨hx, hrest⟩ := List.forall_mem_cons.mp hxs
    rw [trace, own_append, own_map_ne hx, List.nil_append]
    exact ih hrest _

/-- A thread that is left out stays as it was. -/
theorem run_threads_of_never {i : ι} {xs : List (ι × δ)} (hxs : ∀ x ∈ xs, x.1 ≠ i)
    (p : Pool ι Op Res α σ) : (run h xs p).threads i = p.threads i := by
  induction xs generalizing p with
  | nil => rfl
  | cons x xs ih =>
    obtain ⟨hx, hrest⟩ := List.forall_mem_cons.mp hxs
    rw [run_cons, ih hrest, step_threads_ne h p (Ne.symm hx)]

/-- A thread that runs on its own returns what its program returns. -/
theorem exists_run_alone (i : ι) (d : δ) (p : Pool ι Op Res α σ) : ∃ n,
    (run h (List.replicate n (i, d)) p).threads i =
      ret (Prog.run (h d) (p.threads i) p.state).1 := by
  generalize hq : p.threads i = q
  induction q generalizing p with
  | ret a => exact ⟨0, hq⟩
  | call o k ih =>
    have hself : Prog.step (h d) (p.threads i, p.state) =
        (k (h d o p.state).1, (h d o p.state).2) := by
      rw [hq]
      rfl
    obtain ⟨n, hn⟩ := ih _ (step h p (i, d)) (by rw [step_threads_self, hself])
    refine ⟨n + 1, ?_⟩
    rw [List.replicate_succ, run_cons, hn]
    show ret (Prog.run (h d) _ (Prog.step (h d) (p.threads i, p.state)).2).1 = _
    rw [hself]
    rfl

/-- The same after others have run. -/
theorem exists_run_after (i : ι) (pre : List (ι × δ)) (hpre : ∀ x ∈ pre, x.1 ≠ i) (d : δ)
    (p : Pool ι Op Res α σ) : ∃ n,
    (run h (pre ++ List.replicate n (i, d)) p).threads i =
      ret (Prog.run (h d) (p.threads i) (run h pre p).state).1 := by
  obtain ⟨n, hn⟩ := exists_run_alone h i d (run h pre p)
  rw [run_threads_of_never h hpre, ← run_append] at hn
  exact ⟨n, hn⟩

/-- A thread that waits while others run, and then takes its first step. -/
theorem own_first {i : ι} {pre : List (ι × δ)} (hpre : ∀ x ∈ pre, x.1 ≠ i) (d : δ)
    (post : List (ι × δ)) (p : Pool ι Op Res α σ) :
    own i (trace h (pre ++ (i, d) :: post) p) =
      performed (h d) (p.threads i, (run h pre p).state) ++
        own i (trace h post (step h (run h pre p) (i, d))) := by
  induction pre generalizing p with
  | nil => rw [List.nil_append, trace, own_append, own_map_self]; rfl
  | cons x pre ih =>
    have hx : x.1 ≠ i := hpre x List.mem_cons_self
    rw [List.cons_append, trace, own_append, own_map_ne hx, List.nil_append,
      ih (fun y hy => hpre y (List.mem_cons_of_mem x hy)), step_threads_ne h p (Ne.symm hx)]
    rfl

/-- What holds of every answer holds of the answers of a trace. -/
theorem answers_of_trace {A : (o : Op) → Res o → Prop} (hA : ∀ d o s, A o (h d o s).1)
    (xs : List (ι × δ)) (p : Pool ι Op Res α σ) : ∀ y ∈ trace h xs p, A y.2.1 y.2.2 := by
  induction xs generalizing p with
  | nil => intro y hy; exact absurd hy List.not_mem_nil
  | cons x xs ih =>
    intro y hy
    rcases List.mem_append.mp hy with hy | hy
    · obtain ⟨op, hop, rfl⟩ := List.mem_map.mp hy
      cases ht : p.threads x.1 with
      | ret a =>
        rw [ht] at hop
        exact absurd hop List.not_mem_nil
      | call o k =>
        rw [ht] at hop
        obtain rfl := List.mem_singleton.mp hop
        exact hA x.2 o p.state
    · exact ih (step h p x) y hy

/-- What a thread returns on answers as assumed, it returns in any schedule with such answers. -/
theorem returns {P : Op → Prop} {A : (o : Op) → Res o → Prop} {Q : α → Prop}
    (hA : ∀ d o s, A o (h d o s).1) {p : Pool ι Op Res α σ} {i : ι}
    (hp : Prog.Meets P A Q (p.threads i)) (xs : List (ι × δ)) {a : α}
    (hdone : (run h xs p).threads i = ret a) : Q a := by
  have hpath := path h i xs p
  rw [hdone] at hpath
  exact hpath.returns hp fun x hx => answers_of_trace h hA xs p _ (mem_of_own hx)

/-- A part of the state that every operation only appends to. -/
theorem appended {β : Type} {f : σ → List β} {g : ((o : Op) × Res o) → List β}
    (hf : ∀ d o s, f (h d o s).2 = f s ++ g ⟨o, (h d o s).1⟩) (xs : List (ι × δ))
    (p : Pool ι Op Res α σ) :
    f (run h xs p).state = f p.state ++ (trace h xs p).flatMap fun y => g y.2 := by
  induction xs generalizing p with
  | nil => exact (List.append_nil _).symm
  | cons x xs ih =>
    have hstep : f (step h p x).state = f p.state ++
        ((performed (h x.2) (p.threads x.1, p.state)).map (Prod.mk x.1)).flatMap
          fun y => g y.2 := by
      unfold step
      cases p.threads x.1 with
      | ret a => exact (List.append_nil _).symm
      | call o k => simpa [performed, Prog.step] using hf x.2 o p.state
    rw [run_cons, ih, hstep, trace, List.flatMap_append, List.append_assoc]

/-! ## What the steps preserve -/

/-- Each thread keeps to its operations. -/
def Meets (P : ι → Op → Prop) (p : Pool ι Op Res α σ) : Prop :=
  ∀ i, Prog.Meets (P i) (fun _ _ => True) (fun _ => True) (p.threads i)

theorem Meets.step {P : ι → Op → Prop} {p : Pool ι Op Res α σ} (hp : Meets P p) (x : ι × δ) :
    Meets P (step h p x) := by
  intro i
  by_cases hi : i = x.1
  · subst hi
    rw [step_threads_self]
    exact (hp x.1).step p.state
  · rw [step_threads_ne h p hi]
    exact hp i

theorem Meets.run {P : ι → Op → Prop} {p : Pool ι Op Res α σ} (hp : Meets P p)
    (xs : List (ι × δ)) : Meets P (run h xs p) := by
  induction xs generalizing p with
  | nil => exact hp
  | cons x xs ih => exact ih (hp.step h x)

/-- The rule of exact conditions: when a step keeps `I` exactly if it meets `C`, then `I` holds in
    every state of a run exactly if every step of the run meets `C`. `J` is an invariant of all
    steps. -/
theorem always_iff {I J : Pool ι Op Res α σ → Prop} {C : Pool ι Op Res α σ → ι × δ → Prop}
    (hJ : ∀ p x, J p → J (step h p x)) (hI : ∀ p x, J p → I p → (I (step h p x) ↔ C p x))
    {p : Pool ι Op Res α σ} (hp : J p) (hi : I p) (schedule : List (ι × δ)) :
    (∀ xs, xs <+: schedule → I (run h xs p)) ↔
      ∀ xs x, xs ++ [x] <+: schedule → C (run h xs p) x := by
  induction schedule generalizing p with
  | nil =>
    refine ⟨fun _ xs x hx => absurd (List.prefix_nil.mp hx) (by simp), fun _ xs hx => ?_⟩
    rw [List.prefix_nil.mp hx]
    exact hi
  | cons y ys ih =>
    constructor
    · intro hall xs x hx
      have hy : I (step h p y) := hall [y] (by simp)
      cases xs with
      | nil =>
        obtain ⟨rfl, -⟩ := List.cons_prefix_cons.mp hx
        exact (hI p x hp hi).mp hy
      | cons z zs =>
        obtain ⟨rfl, hzs⟩ := List.cons_prefix_cons.mp hx
        refine (ih (hJ p z hp) hy).mp (fun us hus => ?_) zs x hzs
        exact hall (z :: us) (List.cons_prefix_cons.mpr ⟨rfl, hus⟩)
    · intro hall xs hx
      have hy : I (step h p y) := (hI p y hp hi).mpr (hall [] y (by simp))
      cases xs with
      | nil => exact hi
      | cons z zs =>
        obtain ⟨rfl, hzs⟩ := List.cons_prefix_cons.mp hx
        refine (ih (hJ p z hp) hy).mpr (fun us x hus => ?_) zs hzs
        exact hall (z :: us) x (List.cons_prefix_cons.mpr ⟨rfl, hus⟩)

variable {h} {P : ι → Op → Prop} {view : ι → σ → τ}

/-- After any schedule, a thread is where it is when it runs alone on its own draws, and it
    sees the same. -/
theorem Isolated.alone_eq (hv : Isolated h P view) {p : Pool ι Op Res α σ} (hp : Meets P p)
    (i : ι) {s : σ} (hs : view i p.state = view i s) (xs : List (ι × δ)) :
    (run h xs p).threads i = (runOn h (drawsOf i xs) (p.threads i, s)).1 ∧
      view i (run h xs p).state = view i (runOn h (drawsOf i xs) (p.threads i, s)).2 := by
  induction xs generalizing p s with
  | nil => exact ⟨rfl, hs⟩
  | cons x xs ih =>
    obtain ⟨j, d⟩ := x
    rw [run_cons]
    by_cases hj : j = i
    · subst hj
      obtain ⟨ht, hview⟩ := hv.step_own (hp j) d hs
      have hself : (step h p (j, d)).threads j = (Prog.step (h d) (p.threads j, s)).1 :=
        (step_threads_self h p (j, d)).trans ht
      have := ih (hp.step h (j, d)) (s := (Prog.step (h d) (p.threads j, s)).2) hview
      rw [hself] at this
      rw [drawsOf_cons_self, runOn_cons]
      exact this
    · have hne : (step h p (j, d)).threads i = p.threads i :=
        step_threads_ne h p fun h => hj h.symm
      have hview : view i (step h p (j, d)).state = view i s :=
        (hv.step_other (fun h => hj h.symm) (hp j) d p.state).trans hs
      have := ih (hp.step h (j, d)) hview
      rw [hne] at this
      rw [drawsOf_cons_ne hj]
      exact this

/-! ## Two pools in step -/

section Related

variable {β : Type} {R : Op → Op → Prop} {A : (o o' : Op) → Res o → Res o' → Prop}
  {V : α → β → Prop} {S : σ → τ → Prop} {h : δ → Handler Op Res σ} {h' : δ → Handler Op Res τ}

theorem related_step
    (hS : ∀ d o o' s t, R o o' → S s t →
      A o o' (h d o s).1 (h' d o' t).1 ∧ S (h d o s).2 (h' d o' t).2)
    {p : Pool ι Op Res α σ} {q : Pool ι Op Res β τ}
    (hpq : ∀ i, Related R A V (p.threads i) (q.threads i)) (hst : S p.state q.state)
    (x : ι × δ) :
    (∀ i, Related R A V ((step h p x).threads i) ((step h' q x).threads i)) ∧
      S (step h p x).state (step h' q x).state := by
  have hone : Related R A V (Prog.step (h x.2) (p.threads x.1, p.state)).1
      (Prog.step (h' x.2) (q.threads x.1, q.state)).1 ∧
      S (Prog.step (h x.2) (p.threads x.1, p.state)).2
        (Prog.step (h' x.2) (q.threads x.1, q.state)).2 := by
    have hx := hpq x.1
    cases hp : p.threads x.1 with
    | ret a =>
      cases hq : q.threads x.1 with
      | ret b =>
        rw [hp, hq] at hx
        exact ⟨hx, hst⟩
      | call o' k' =>
        rw [hp, hq] at hx
        exact hx.elim
    | call o k =>
      cases hq : q.threads x.1 with
      | ret b =>
        rw [hp, hq] at hx
        exact hx.elim
      | call o' k' =>
        rw [hp, hq] at hx
        obtain ⟨hans, hst'⟩ := hS x.2 o o' p.state q.state hx.1 hst
        exact ⟨hx.2 _ _ hans, hst'⟩
  refine ⟨fun i => ?_, hone.2⟩
  by_cases hi : i = x.1
  · subst hi
    rw [step_threads_self, step_threads_self]
    exact hone.1
  · rw [step_threads_ne h p hi, step_threads_ne h' q hi]
    exact hpq i

/-- The rule of two pools: on one schedule, related threads over related states stay related. -/
theorem related_run
    (hS : ∀ d o o' s t, R o o' → S s t →
      A o o' (h d o s).1 (h' d o' t).1 ∧ S (h d o s).2 (h' d o' t).2)
    {p : Pool ι Op Res α σ} {q : Pool ι Op Res β τ}
    (hpq : ∀ i, Related R A V (p.threads i) (q.threads i)) (hst : S p.state q.state)
    (schedule : List (ι × δ)) :
    (∀ i, Related R A V ((run h schedule p).threads i) ((run h' schedule q).threads i)) ∧
      S (run h schedule p).state (run h' schedule q).state := by
  induction schedule generalizing p q with
  | nil => exact ⟨hpq, hst⟩
  | cons x xs ih =>
    obtain ⟨hpq', hst'⟩ := related_step hS hpq hst x
    exact ih hpq' hst'

end Related

end Pool

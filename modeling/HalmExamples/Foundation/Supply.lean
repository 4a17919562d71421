import Mathlib.Logic.Function.Basic

/-!
# Supply trees that are rewired

Each node is off, runs by itself, or is fed by another node.  A node is alive if the nodes
that it is fed by, one after another, end in one that runs by itself.  Rewiring one node
leaves every node alone that does not use it, and a node that is fed by a live one, to which
it does not lead back, is alive.  Ranks that fall along the feeds keep the tree free of loops.
-/

set_option autoImplicit false

namespace Foundation.Supply

variable {Name : Type}

/-- `none`: off, `some none`: runs by itself, `some (some source)`: fed by `source`. -/
abbrev Feeds (Name : Type) := Name → Option (Option Name)

inductive Alive (feeds : Feeds Name) : Name → Prop where
  | root {name : Name} (on : feeds name = some none) : Alive feeds name
  | fed {name source : Name} (on : feeds name = some (some source))
      (alive : Alive feeds source) : Alive feeds name

/-- A node and all that it is fed by, directly or not. -/
inductive Uses (feeds : Feeds Name) : Name → Name → Prop where
  | refl (name : Name) : Uses feeds name name
  | fed {name source target : Name} (on : feeds name = some (some source))
      (uses : Uses feeds source target) : Uses feeds name target

def Ranked (rank : Name → Nat) (feeds : Feeds Name) : Prop :=
  ∀ name source, feeds name = some (some source) → rank source < rank name

variable {feeds : Feeds Name} {name source target changed : Name}

theorem Alive.on (alive : Alive feeds name) : feeds name ≠ none := by
  cases alive with
  | root on => simp [on]
  | fed on _ => simp [on]

theorem Alive.of_fed (alive : Alive feeds name) (on : feeds name = some (some source)) :
    Alive feeds source := by
  cases alive with
  | root is => cases on.symm.trans is
  | fed is alive =>
      cases on.symm.trans is
      exact alive

theorem Alive.of_uses (alive : Alive feeds name) (uses : Uses feeds name target) :
    Alive feeds target := by
  induction uses with
  | refl name => exact alive
  | fed on _ ih => exact ih (alive.of_fed on)

theorem Uses.trans {final : Name} (uses : Uses feeds name target) (rest : Uses feeds target final) :
    Uses feeds name final := by
  induction uses with
  | refl name => exact rest
  | fed on _ ih => exact .fed on (ih rest)

theorem Uses.eq_or_rank_lt {rank : Name → Nat} (ranked : Ranked rank feeds)
    (uses : Uses feeds name target) : name = target ∨ rank target < rank name := by
  induction uses with
  | refl name => exact Or.inl rfl
  | fed on _ ih =>
      have falls := ranked _ _ on
      rcases ih with rfl | lower
      · exact Or.inr falls
      · exact Or.inr (Nat.lt_trans lower falls)

/-- A node uses no other of the same or of a higher rank. -/
theorem not_uses_of_rank {rank : Name → Nat} (ranked : Ranked rank feeds)
    (different : name ≠ target) (rankLe : rank name ≤ rank target) : ¬ Uses feeds name target := by
  intro uses
  rcases uses.eq_or_rank_lt ranked with same | lower
  · exact different same
  · exact absurd rankLe (Nat.not_le_of_lt lower)

/-! ## Chains -/

/-- All that a node is fed by, down to one that runs by itself. -/
def Chain (feeds : Feeds Name) : Name → List Name → Prop
  | name, [] => feeds name = some none
  | name, source :: rest => feeds name = some (some source) ∧ Chain feeds source rest

theorem Chain.alive {path : List Name} (chain : Chain feeds name path) : Alive feeds name := by
  induction path generalizing name with
  | nil => exact .root chain
  | cons source rest ih => exact .fed chain.1 (ih chain.2)

theorem Chain.uses_iff {path : List Name} (chain : Chain feeds name path) :
    Uses feeds name target ↔ target ∈ name :: path := by
  induction path generalizing name with
  | nil =>
      rw [List.mem_singleton]
      refine ⟨fun uses => ?_, fun same => same ▸ .refl target⟩
      cases uses with
      | refl => rfl
      | fed on _ => cases (show feeds name = some none from chain).symm.trans on
  | cons source rest ih =>
      rw [List.mem_cons, ← ih chain.2]
      refine ⟨fun uses => ?_, fun either => ?_⟩
      · cases uses with
        | refl => exact Or.inl rfl
        | fed on uses =>
            cases chain.1.symm.trans on
            exact Or.inr uses
      · rcases either with rfl | uses
        · exact .refl target
        · exact .fed chain.1 uses

theorem Chain.of_agree {other : Feeds Name} {path : List Name} (chain : Chain feeds name path)
    (agree : ∀ node ∈ name :: path, other node = feeds node) : Chain other name path := by
  induction path generalizing name with
  | nil => exact (agree name List.mem_cons_self).trans chain
  | cons source rest ih =>
      refine ⟨(agree name List.mem_cons_self).trans chain.1, ih chain.2 fun node member => ?_⟩
      exact agree node (List.mem_cons_of_mem name member)

section Update
variable [DecidableEq Name]

theorem Chain.update {path : List Name} (chain : Chain feeds name path)
    (config : Option (Option Name)) (unused : changed ∉ name :: path) :
    Chain (Function.update feeds changed config) name path :=
  chain.of_agree fun node member =>
    Function.update_of_ne (fun same : node = changed => unused (same ▸ member)) _ _

theorem Chain.enable {path : List Name} (chain : Chain feeds source path)
    (unused : name ∉ source :: path) :
    Chain (Function.update feeds name (some (some source))) name (source :: path) :=
  ⟨Function.update_self _ _ _, chain.update _ unused⟩

theorem Alive.update (alive : Alive feeds name) (config : Option (Option Name))
    (unused : ¬ Uses feeds name changed) : Alive (Function.update feeds changed config) name := by
  induction alive with
  | @root name on =>
      have other : name ≠ changed := fun same => unused (same ▸ .refl name)
      exact .root (by rw [Function.update_of_ne other, on])
  | @fed name source on _ ih =>
      have other : name ≠ changed := fun same => unused (same ▸ .refl name)
      exact .fed (by rw [Function.update_of_ne other, on]) (ih fun uses => unused (.fed on uses))

theorem Uses.update_of_unused (uses : Uses feeds name target) (config : Option (Option Name))
    (unused : ¬ Uses feeds name changed) :
    Uses (Function.update feeds changed config) name target := by
  induction uses with
  | refl name => exact .refl name
  | @fed name source target on _ ih =>
      have other : name ≠ changed := fun same => unused (same ▸ .refl name)
      exact .fed (by rw [Function.update_of_ne other, on]) (ih fun uses => unused (.fed on uses))

/-- Ranks tell that a node is not on the way from one to another. -/
theorem Uses.update {rank : Name → Nat} (uses : Uses feeds name target) (ranked : Ranked rank feeds)
    (config : Option (Option Name)) (other : changed ≠ name)
    (beside : rank name ≤ rank changed ∨ rank changed ≤ rank target) :
    Uses (Function.update feeds changed config) name target := by
  induction uses with
  | refl name => exact .refl name
  | @fed name source target on rest ih =>
      refine .fed (by rw [Function.update_of_ne (Ne.symm other), on]) ?_
      have falls := ranked name source on
      rcases rest.eq_or_rank_lt ranked with rfl | lower
      · exact .refl source
      · have rankNe : rank changed ≠ rank source := by omega
        exact ih (fun same => rankNe (congrArg rank same)) (by omega)

theorem Alive.enable (alive : Alive feeds source) (unused : ¬ Uses feeds source name) :
    Alive (Function.update feeds name (some (some source))) name :=
  .fed (Function.update_self _ _ _) (alive.update _ unused)

theorem not_alive_enable {rank : Name → Nat}
    (ranked : Ranked rank (Function.update feeds name (some (some source))))
    (dead : ¬ Alive feeds source) :
    ¬ Alive (Function.update feeds name (some (some source))) name := by
  intro alive
  have on : Function.update feeds name (some (some source)) name = some (some source) :=
    Function.update_self _ _ _
  have falls := ranked name source on
  have unused : ¬ Uses (Function.update feeds name (some (some source))) source name :=
    not_uses_of_rank ranked (fun same => absurd falls (same ▸ Nat.lt_irrefl _)) (Nat.le_of_lt falls)
  have before := (alive.of_fed on).update (feeds name) unused
  rw [Function.update_idem, Function.update_eq_self] at before
  exact dead before

theorem alive_start : Alive (Function.update feeds name (some none)) name :=
  .root (Function.update_self _ _ _)

theorem Uses.dead_of_disable (uses : Uses feeds name target) :
    ¬ Alive (Function.update feeds target none) name := by
  induction uses with
  | refl name => exact fun alive => alive.on (Function.update_self _ _ _)
  | @fed name source target on _ ih =>
      intro alive
      by_cases same : name = target
      · subst same
        exact alive.on (Function.update_self _ _ _)
      · have kept : Function.update feeds target none name = some (some source) := by
          rw [Function.update_of_ne same, on]
        exact ih (alive.of_fed kept)

theorem Alive.of_disable (alive : Alive (Function.update feeds target none) name) :
    Alive feeds name ∧ ¬ Uses feeds name target := by
  suffices before : Alive feeds name from ⟨before, fun uses => uses.dead_of_disable alive⟩
  induction alive with
  | @root name on =>
      have other : name ≠ target := fun same => by
        rw [same, Function.update_self] at on
        cases on
      exact .root (by rw [← on, Function.update_of_ne other])
  | @fed name source on _ ih =>
      have other : name ≠ target := fun same => by
        rw [same, Function.update_self] at on
        cases on
      exact .fed (by rw [← on, Function.update_of_ne other]) ih

theorem Uses.of_disable (uses : Uses (Function.update feeds changed none) name target) :
    Uses feeds name target := by
  induction uses with
  | refl name => exact .refl name
  | @fed name source target on _ ih =>
      have other : name ≠ changed := fun same => by
        rw [same, Function.update_self] at on
        cases on
      exact .fed (by rw [← on, Function.update_of_ne other]) ih

/-- Switching a node off takes exactly those with it that use it. -/
theorem alive_disable_iff (alive : Alive feeds name) :
    Alive (Function.update feeds target none) name ↔ ¬ Uses feeds name target :=
  ⟨fun still uses => uses.dead_of_disable still, fun unused => alive.update none unused⟩

/-- A node that is alive itself and does not break by being rewired breaks nothing else. -/
theorem Alive.of_rewired (alive : Alive feeds target) (config : Option (Option Name))
    (rewired : Alive (Function.update feeds name config) name) :
    Alive (Function.update feeds name config) target := by
  induction alive with
  | @root target on =>
      by_cases same : target = name
      · exact same ▸ rewired
      · exact .root (by rw [Function.update_of_ne same, on])
  | @fed target source on _ ih =>
      by_cases same : target = name
      · exact same ▸ rewired
      · exact .fed (by rw [Function.update_of_ne same, on]) ih

theorem Ranked.update {rank : Name → Nat} (ranked : Ranked rank feeds)
    (config : Option (Option Name))
    (falls : ∀ source, config = some (some source) → rank source < rank name) :
    Ranked rank (Function.update feeds name config) := by
  intro other source on
  by_cases same : other = name
  · subst same
    rw [Function.update_self] at on
    exact falls source on
  · rw [Function.update_of_ne same] at on
    exact ranked other source on

theorem uses_update_iff {rank : Name → Nat} {config : Option (Option Name)}
    (ranked : Ranked rank feeds) (after : Ranked rank (Function.update feeds changed config))
    (other : changed ≠ name)
    (beside : rank name ≤ rank changed ∨ rank changed ≤ rank target) :
    Uses (Function.update feeds changed config) name target ↔ Uses feeds name target := by
  refine ⟨fun uses => ?_, fun uses => uses.update ranked config other beside⟩
  have before := uses.update after (feeds changed) other beside
  rwa [Function.update_idem, Function.update_eq_self] at before

end Update

end Foundation.Supply

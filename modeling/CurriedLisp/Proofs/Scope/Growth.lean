import CurriedLisp.Proofs.Scope.Frame
import CurriedLisp.Proofs.Value.Alike

set_option autoImplicit false

namespace CurriedLisp

-- Two stores and the renaming between them grew together: whatever is newly related is new on both sides.
structure Growth (R : Renaming) (σ τ : Store) (R' : Renaming) (σ' τ' : Store) : Prop where
  within : R.Within R'
  scopes₁ : σ.scopes.size ≤ σ'.scopes.size
  scopes₂ : τ.scopes.size ≤ τ'.scopes.size
  closures₁ : σ.closures ≤ σ'.closures
  closures₂ : τ.closures ≤ τ'.closures
  fresh : ∀ a b, R'.scopes a b → R.scopes a b ∨ σ.scopes.size ≤ a ∧ τ.scopes.size ≤ b

namespace Growth

variable {R R' R'' : Renaming} {σ τ σ' τ' σ'' τ'' : Store}

theorem steady (left : σ'.extent = σ.extent) (right : τ'.extent = τ.extent) : Growth R σ τ R σ' τ' :=
  have larger {n m : Nat} (same : m = n) : n ≤ m := Nat.le_of_eq same.symm
  ⟨R.within_refl, larger (congrArg Prod.fst left), larger (congrArg Prod.fst right), larger (congrArg Prod.snd left),
    larger (congrArg Prod.snd right), fun _ _ old => .inl old⟩

theorem refl : Growth R σ τ R σ τ := steady rfl rfl

theorem trans (first : Growth R σ τ R' σ' τ') (second : Growth R' σ' τ' R'' σ'' τ'') :
    Growth R σ τ R'' σ'' τ'' := by
  refine ⟨R.within_trans first.within second.within, Nat.le_trans first.scopes₁ second.scopes₁,
    Nat.le_trans first.scopes₂ second.scopes₂, Nat.le_trans first.closures₁ second.closures₁,
    Nat.le_trans first.closures₂ second.closures₂, fun a b related => ?_⟩
  obtain old | ⟨left, right⟩ := second.fresh a b related
  · exact first.fresh a b old
  · exact .inr ⟨Nat.le_trans first.scopes₁ left, Nat.le_trans first.scopes₂ right⟩

theorem scope {c d : Option Nat}
    (within : R.Within R') (only : ∀ a b, R'.scopes a b → R.scopes a b ∨ a = σ.scopes.size ∧ b = τ.scopes.size) :
    Growth R σ τ R' (σ.addScope c) (τ.addScope d) := by
  refine ⟨within, by simp [Store.addScope_size], by simp [Store.addScope_size], Nat.le_refl _, Nat.le_refl _,
    fun a b related => (only a b related).imp_right ?_⟩
  rintro ⟨rfl, rfl⟩
  exact ⟨Nat.le_refl _, Nat.le_refl _⟩

theorem closure (within : R.Within R') (scopes : R'.scopes = R.scopes) :
    Growth R σ τ R' σ.addClosure τ.addClosure :=
  ⟨within, Nat.le_refl _, Nat.le_refl _, Nat.le_succ _, Nat.le_succ _, fun _ _ related => .inl (scopes ▸ related)⟩

theorem forget (growth : Growth R σ τ R' σ' τ') : Growth R σ τ R σ' τ' :=
  { growth with within := R.within_refl, fresh := fun _ _ old => .inl old }

end Growth

end CurriedLisp

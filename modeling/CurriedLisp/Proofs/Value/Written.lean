import CurriedLisp.Value.Printer

set_option autoImplicit false

namespace CurriedLisp

-- Two depths give the same unless one of them is too small.
theorem agree_of_deeper {α : Type} {x : Nat → α} {tooDeep : α}
    (deeper : ∀ {d e : Nat}, d ≤ e → x d ≠ tooDeep → x e = x d) (d e : Nat) :
    x d = tooDeep ∨ x e = tooDeep ∨ x d = x e := by
  by_cases deep : x d = tooDeep
  · exact .inl deep
  · by_cases deep' : x e = tooDeep
    · exact .inr (.inl deep')
    · rcases Nat.le_total d e with less | less
      · exact .inr (.inr (deeper less deep).symm)
      · exact .inr (.inr (deeper less deep'))

namespace Value

theorem obstacle_pair (first second : Value) (depth : Nat) :
    (pair first second).obstacle? (depth + 1) =
      (first.obstacle? depth).or (second.obstacle? (depth + 1)) := by
  rw [obstacle?]
  cases first.obstacle? depth <;> rfl

theorem obstacle_deeper (v : Value) {depth₁ depth₂ : Nat} (less : depth₁ ≤ depth₂)
    (fits : v.obstacle? depth₁ ≠ some .tooDeep) : v.obstacle? depth₂ = v.obstacle? depth₁ := by
  induction v generalizing depth₁ depth₂ with
  | pair first second ihFirst ihSecond =>
      cases depth₁ with
      | zero => exact absurd rfl fits
      | succ d =>
          obtain ⟨e, rfl⟩ : ∃ e, depth₂ = e + 1 := ⟨depth₂ - 1, by omega⟩
          rw [obstacle_pair] at fits
          rw [obstacle_pair, obstacle_pair]
          have fitsFirst : first.obstacle? d ≠ some .tooDeep := fun deep => fits (by rw [deep]; rfl)
          rw [ihFirst (by omega) fitsFirst]
          cases found : first.obstacle? d with
          | some o => rfl
          | none =>
              rw [found] at fits
              exact ihSecond (by omega) fits
  | closure id formals body scope ih =>
      cases depth₁ with
      | zero => exact absurd rfl fits
      | succ d =>
          obtain ⟨e, rfl⟩ : ∃ e, depth₂ = e + 1 := ⟨depth₂ - 1, by omega⟩
          exact ih (by omega : d ≤ e) fits
  | _ => rfl

theorem render_deeper (v : Value) {depth₁ depth₂ : Nat} (less : depth₁ ≤ depth₂)
    (fits : v.render depth₁ ≠ .error .tooDeep) : v.render depth₂ = v.render depth₁ := by
  have free : v.obstacle? depth₁ ≠ some .tooDeep := fun deep => fits (by rw [render, deep])
  rw [render, render, obstacle_deeper v less free]

theorem render_label_deeper (v : Value) {depth₁ depth₂ : Nat} (less : depth₁ ≤ depth₂)
    (fits : v.renderLabel depth₁ ≠ .error .tooDeep) : v.renderLabel depth₂ = v.renderLabel depth₁ := by
  have free : v.obstacle? depth₁ ≠ some .tooDeep := fun deep => fits (by rw [renderLabel, deep])
  rw [renderLabel, renderLabel, obstacle_deeper v less free]

theorem render_agree (v : Value) (depth₁ depth₂ : Nat) :
    v.render depth₁ = .error .tooDeep ∨ v.render depth₂ = .error .tooDeep ∨ v.render depth₁ = v.render depth₂ :=
  agree_of_deeper (fun less => v.render_deeper less) depth₁ depth₂

theorem render_label_agree (v : Value) (depth₁ depth₂ : Nat) :
    v.renderLabel depth₁ = .error .tooDeep ∨ v.renderLabel depth₂ = .error .tooDeep ∨
      v.renderLabel depth₁ = v.renderLabel depth₂ :=
  agree_of_deeper (fun less => v.render_label_deeper less) depth₁ depth₂

end Value

end CurriedLisp

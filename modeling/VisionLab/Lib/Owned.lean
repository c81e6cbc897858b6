import Mathlib.Logic.Function.Basic

/-! Resources with one owner each. What exists is what somebody holds, nobody shares, and this stays
so when a resource is acquired, handed over or released by its owner. -/
namespace Owned

variable {N H : Type*} [DecidableEq N]

/-- Which resources exist, and who holds which. -/
structure Estate (N H : Type*) where
  live : H → Prop
  held : N → Option H

/-- Every resource has one owner, and nobody holds one that does not exist. -/
structure Estate.Settled (e : Estate N H) : Prop where
  live : ∀ n h, e.held n = some h → e.live h
  owner : ∀ h, e.live h → ∃ n, e.held n = some h
  single : ∀ n m h, e.held n = some h → e.held m = some h → n = m

namespace Estate

def acquire (n : N) (h : H) (e : Estate N H) : Estate N H where
  live := fun k => k = h ∨ e.live k
  held := Function.update e.held n (some h)

def transfer (src dst : N) (e : Estate N H) : Estate N H where
  live := e.live
  held := Function.update (Function.update e.held dst (e.held src)) src none

def release (n : N) (e : Estate N H) : Estate N H where
  live := fun k => e.live k ∧ e.held n ≠ some k
  held := Function.update e.held n none

structure Same (e after : Estate N H) : Prop where
  live : ∀ h, after.live h ↔ e.live h
  held : after.held = e.held

omit [DecidableEq N] in
theorem Settled.same {e after : Estate N H} (settled : e.Settled) (same : Same e after) :
    after.Settled := by
  constructor
  · intro n h holds
    rw [same.held] at holds
    exact (same.live h).mpr (settled.live n h holds)
  · intro h there
    rw [same.held]
    exact settled.owner h ((same.live h).mp there)
  · rw [same.held]
    exact settled.single

theorem Settled.acquire {e : Estate N H} (settled : e.Settled) {n : N} {h : H}
    (fresh : ¬ e.live h) (free : e.held n = none) : (e.acquire n h).Settled := by
  have new : ∀ m k, (e.acquire n h).held m = some k → m = n ∧ k = h ∨ m ≠ n ∧ e.held m = some k := by
    intro m k holds
    by_cases here : m = n
    · subst here
      simp only [Estate.acquire, Function.update_self, Option.some.injEq] at holds
      exact Or.inl ⟨rfl, holds.symm⟩
    · simp only [Estate.acquire, Function.update_of_ne here] at holds
      exact Or.inr ⟨here, holds⟩
  constructor
  · intro m k holds
    rcases new m k holds with ⟨-, here⟩ | ⟨-, old⟩
    · exact Or.inl here
    · exact Or.inr (settled.live m k old)
  · rintro k (rfl | old)
    · exact ⟨n, by simp [Estate.acquire]⟩
    · obtain ⟨m, holds⟩ := settled.owner k old
      have other : m ≠ n := by
        rintro rfl
        rw [free] at holds
        contradiction
      exact ⟨m, by simpa [Estate.acquire, other] using holds⟩
  · intro m l k first second
    rcases new m k first with ⟨rfl, rfl⟩ | ⟨-, old⟩ <;>
      rcases new l _ second with ⟨there, same⟩ | ⟨-, also⟩
    · exact there.symm
    · exact absurd (settled.live l _ also) fresh
    · exact absurd (settled.live m k old) (same ▸ fresh)
    · exact settled.single m l k old also

theorem Settled.transfer {e : Estate N H} (settled : e.Settled) {src dst : N} (apart : dst ≠ src)
    (free : e.held dst = none) : (e.transfer src dst).Settled := by
  have new : ∀ m k, (e.transfer src dst).held m = some k →
      m = dst ∧ e.held src = some k ∨ m ≠ dst ∧ m ≠ src ∧ e.held m = some k := by
    intro m k holds
    by_cases gone : m = src
    · simp [Estate.transfer, gone] at holds
    · by_cases here : m = dst
      · subst here
        exact Or.inl ⟨rfl, by simpa [Estate.transfer, gone] using holds⟩
      · exact Or.inr ⟨here, gone, by simpa [Estate.transfer, gone, here] using holds⟩
  constructor
  · intro m k holds
    rcases new m k holds with ⟨-, was⟩ | ⟨-, -, was⟩
    · exact settled.live src k was
    · exact settled.live m k was
  · intro k there
    obtain ⟨m, holds⟩ := settled.owner k there
    by_cases moved : m = src
    · subst moved
      exact ⟨dst, by simpa [Estate.transfer, apart] using holds⟩
    · have other : m ≠ dst := by
        rintro rfl
        rw [free] at holds
        contradiction
      exact ⟨m, by simpa [Estate.transfer, moved, other] using holds⟩
  · intro m l k first second
    rcases new m k first with ⟨rfl, was⟩ | ⟨-, away, was⟩ <;>
      rcases new l k second with ⟨rfl, also⟩ | ⟨-, off, also⟩
    · rfl
    · exact absurd (settled.single l src k also was) off
    · exact absurd (settled.single m src k was also) away
    · exact settled.single m l k was also

theorem Settled.release {e : Estate N H} (settled : e.Settled) (n : N) : (e.release n).Settled := by
  have new : ∀ m k, (e.release n).held m = some k → m ≠ n ∧ e.held m = some k := by
    intro m k holds
    by_cases here : m = n
    · simp [Estate.release, here] at holds
    · exact ⟨here, by simpa [Estate.release, here] using holds⟩
  constructor
  · intro m k holds
    obtain ⟨other, was⟩ := new m k holds
    exact ⟨settled.live m k was, fun mine => other (settled.single m n k was mine)⟩
  · rintro k ⟨there, spared⟩
    obtain ⟨m, holds⟩ := settled.owner k there
    have other : m ≠ n := by
      rintro rfl
      exact spared holds
    exact ⟨m, by simpa [Estate.release, other] using holds⟩
  · intro m l k first second
    exact settled.single m l k (new m k first).2 (new l k second).2

end Estate

end Owned

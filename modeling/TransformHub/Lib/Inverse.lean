import TransformHub.Lib.OrderedMap

/-!
# Maps that are inverse to each other

Two maps of which each is the inverse of the other, so that both are partial bijections.
-/

namespace TransformHub

open OrderedMap

universe u v

variable {α : Type u} {β : Type v} [DecidableEq α] [DecidableEq β]

/-- What stands for what, in both directions. -/
def Inverse (m : OrderedMap α β) (r : OrderedMap β α) : Prop :=
  ∀ a b, m.get? a = some b ↔ r.get? b = some a

namespace Inverse

variable {m : OrderedMap α β} {r : OrderedMap β α} {a : α} {b : β}

theorem empty : Inverse (.empty : OrderedMap α β) .empty := by
  intro a b
  simp

theorem link (h : Inverse m r) (ha : ∀ b', m.get? a = some b' → b' = b)
    (hb : ∀ a', r.get? b = some a' → a' = a) : Inverse (m.set a b) (r.set b a) := by
  intro a' b'
  rw [get?_set, get?_set]
  by_cases hkey : a = a'
  · subst hkey
    by_cases hval : b = b'
    · subst hval
      simp
    · -- the old value of the key would have been the new one
      have hold : r.get? b' ≠ some a := by
        intro hget
        exact hval (ha b' ((h a b').mpr hget)).symm
      simp [hval, hold]
  · by_cases hval : b = b'
    · subst hval
      have hold : m.get? a' ≠ some b := by
        intro hget
        exact hkey (hb a' ((h a' b).mp hget)).symm
      simp [hkey, hold]
    · rw [if_neg hkey, if_neg hval]
      exact h a' b'

theorem link_iff (h : Inverse m r) :
    Inverse (m.set a b) (r.set b a) ↔
      (∀ b', m.get? a = some b' → b' = b) ∧ ∀ a', r.get? b = some a' → a' = a := by
  refine ⟨fun hlinked => ⟨fun b' hget => ?_, fun a' hget => ?_⟩, fun hfree => ?_⟩
  · by_contra hne
    have hback := hlinked a b'
    rw [get?_set_self, get?_set_of_ne _ (Ne.symm hne)] at hback
    exact hne (Option.some_inj.mp (hback.mpr ((h a b').mp hget))).symm
  · by_contra hne
    have hback := hlinked a' b
    rw [get?_set_self, get?_set_of_ne _ (Ne.symm hne)] at hback
    exact hne (Option.some_inj.mp (hback.mp ((h a' b).mpr hget))).symm
  · exact h.link hfree.1 hfree.2

theorem unlink (h : Inverse m r) (hget : m.get? a = some b) :
    Inverse (m.delete a) (r.delete b) := by
  intro a' b'
  rw [get?_delete, get?_delete]
  by_cases hkey : a = a'
  · subst hkey
    by_cases hb : b = b'
    · simp [hb]
    · have hother : r.get? b' ≠ some a := fun hback =>
        hb (Option.some_inj.mp (hget.symm.trans ((h a b').mpr hback)))
      simp [hb, hother]
  · by_cases hb : b = b'
    · subst hb
      have hother : m.get? a' ≠ some b := by
        intro hget'
        have hback := (h a b).mp hget
        rw [(h a' b).mp hget'] at hback
        exact hkey (Option.some_inj.mp hback).symm
      simp [hkey, hother]
    · rw [if_neg hkey, if_neg hb]
      exact h a' b'

end Inverse

end TransformHub

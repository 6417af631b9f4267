import Mathlib.Data.Set.Insert

/-!
An authority whose secrets are good for one use. Presenting a live secret replaces
it by a fresh one; a secret that is not live is refused, and as fresh secrets were
never seen before, what was refused once is refused for ever.
-/

namespace Ccflare.RotatingSecret

variable {Secret : Type}

/-- The secrets that are accepted, among all that were issued or presented. -/
structure Authority (Secret : Type) where
  live : Set Secret
  known : Set Secret
  issued : live ⊆ known

inductive Reaction (Secret : Type) where
  | granted (fresh : Secret)
  | refused
  | failed

def Authority.rotate (authority : Authority Secret) (used fresh : Secret) : Authority Secret where
  live := insert fresh (authority.live \ {used})
  known := insert fresh authority.known
  issued := Set.insert_subset_insert fun _ held => authority.issued held.1

def Authority.present (authority : Authority Secret) (secret : Secret) : Authority Secret where
  live := authority.live
  known := insert secret authority.known
  issued := authority.issued.trans (Set.subset_insert _ _)

def Authority.revoke (authority : Authority Secret) (secret : Secret) : Authority Secret where
  live := authority.live \ {secret}
  known := authority.known
  issued _ held := authority.issued held.1

/-- What happens when a secret is presented. The answer to a rotation can be lost. -/
inductive Serves (authority : Authority Secret) (secret : Secret) :
    Reaction Secret → Authority Secret → Prop where
  | rotated (fresh : Secret) : secret ∈ authority.live → fresh ∉ authority.known →
      Serves authority secret (.granted fresh) (authority.rotate secret fresh)
  | lost (fresh : Secret) : secret ∈ authority.live → fresh ∉ authority.known →
      Serves authority secret .failed (authority.rotate secret fresh)
  | refused : secret ∉ authority.live → Serves authority secret .refused (authority.present secret)
  | failed : Serves authority secret .failed authority

/-- The authority knows the secret and does not accept it. -/
def Authority.Dead (authority : Authority Secret) (secret : Secret) : Prop :=
  secret ∈ authority.known ∧ secret ∉ authority.live

theorem Serves.refused_dead {authority after : Authority Secret} {secret : Secret}
    (served : Serves authority secret .refused after) : after.Dead secret := by
  cases served with
  | refused absent => exact ⟨Set.mem_insert _ _, absent⟩

theorem rotate_dead (authority : Authority Secret) (used fresh secret : Secret)
    (unknown : fresh ∉ authority.known) (dead : authority.Dead secret) :
    (authority.rotate used fresh).Dead secret := by
  constructor
  · exact Set.mem_insert_of_mem _ dead.1
  · rintro (rfl | ⟨live, -⟩)
    · exact unknown dead.1
    · exact dead.2 live

theorem revoke_dead (authority : Authority Secret) (revoked secret : Secret)
    (dead : authority.Dead secret) : (authority.revoke revoked).Dead secret :=
  ⟨dead.1, fun live => dead.2 live.1⟩

/-- Dead secrets stay dead, whatever is presented. -/
theorem Serves.keeps_dead {authority after : Authority Secret} {presented : Secret}
    {reaction : Reaction Secret} (served : Serves authority presented reaction after)
    (secret : Secret) (dead : authority.Dead secret) : after.Dead secret := by
  cases served with
  | rotated fresh _ unknown => exact rotate_dead authority presented fresh secret unknown dead
  | lost fresh _ unknown => exact rotate_dead authority presented fresh secret unknown dead
  | refused _ => exact ⟨Set.mem_insert_of_mem _ dead.1, dead.2⟩
  | failed => exact dead

end Ccflare.RotatingSecret

import Arena.Model.Effects
import Arena.Model.Xray

/-!
# What `authorize` asks of an access key

Apart from the address limit, the checks of `authorize` are those of the desired Xray
configuration: an enabled node, an enabled key, an allowed user.
-/

namespace Arena.Model

open Arena.Lib

variable {now : Instant} {db : Database} {k : LoadedKey} {p : GatewayAuthorize}

/-- The request is let through, or stopped by nothing but the address limit. -/
def Verdict.passes : Verdict → Bool
  | .admitted .. | .ipLimit _ => true
  | _ => false

/-- The unique index on user and node: the key that `authorize` finds is this one. -/
theorem enabledKey_isSome_iff (hk : k ∈ db.loadKeys) :
    (db.enabledKey k.key.userId k.key.nodeId).isSome ↔ k.key.enabled := by
  obtain ⟨mem, -, -⟩ := mem_loadKeys.1 hk
  simp only [Database.enabledKey, List.find?_isSome, Bool.and_eq_true, decide_eq_true_eq]
  constructor
  · rintro ⟨key, hkey, ⟨user, node⟩, enabled⟩
    have same : key = k.key := List.inj_on_of_nodup_map db.keyPairs hkey mem (by rw [user, node])
    exact same ▸ enabled
  · exact fun enabled => ⟨k.key, mem, ⟨rfl, rfl⟩, enabled⟩

/-- **A request passes when its key is admissible.** -/
theorem decideRoute_passes_iff (hk : k ∈ db.loadKeys) (user : p.userId = k.key.userId)
    (node : p.nodeId = k.key.nodeId) :
    (decideRoute now p db).passes ↔ k.Admissible now := by
  obtain ⟨-, hu, hn⟩ := mem_loadKeys.1 hk
  have key := enabledKey_isSome_iff hk
  constructor
  · intro passes
    unfold decideRoute at passes
    rw [user, node, hu, hn] at passes
    split at passes
    · rename_i u n found h₁ h₂ h₃
      cases h₁; cases h₂
      split at passes
      · cases passes
      · split at passes
        · cases passes
        · exact ⟨by simp_all, key.1 (by simp [h₃]), by simp_all⟩
    · cases passes
  · rintro ⟨node_on, enabled, allowed⟩
    obtain ⟨found, hfound⟩ := Option.isSome_iff_exists.1 (key.2 enabled)
    unfold decideRoute
    simp only [user, node, hu, hn, hfound, node_on, allowed, Bool.not_true, Bool.false_eq_true,
      if_false]
    split <;> rfl

end Arena.Model

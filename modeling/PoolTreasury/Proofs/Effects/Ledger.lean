import PoolTreasury.Proofs.Run.Step

/-! # What the ledger operations write

Each operation of the ledger either changes nothing or makes the one write its checks allow,
followed by an operation record. Every check and every computation that can overflow comes
before the write, so a refusal and an overflow both leave the tables as they were, and a
write of a record just found cannot fail. None of these operations sends a transfer.

Each operation is walked once, in `*_keptStep`: it ends in a step (`Post.keptStep`), and a
refusal keeps the tables and the transfers. The step lemmas that the run invariants use are
read off these walks at the end of the module.
-/

namespace PoolTreasury

variable (s : RunState)

theorem registerUser_keptStep (address : String) :
    Holds (registerUser address) s (.keptStep (.registerUser address) s) := by
  simp only [registerUser, holds_ite, holds_throw, holds_bind, holds_findUserByAddress]
  split
  · exact ⟨rfl, rfl⟩
  · split
    · exact OpStep.quiet rfl rfl
    · -- the address is saved; a save the store refuses leaves the tables as they were
      simp only [holds_bind, holds_saveUser]
      split
      · exact OpStep.registerUser rfl rfl
      · rename_i hsave
        simp only [holds_bind, holds_findUserByAddress]
        split
        · exact OpStep.registerUser rfl rfl
        · exact ⟨s.tables.saveUser_of_error hsave, rfl⟩
      · rename_i hsave
        exact ⟨s.tables.saveUser_of_error hsave, rfl⟩

theorem createPool_keptStep (params : NewPool) :
    Holds (createPool params) s (.keptStep (.createPool params) s) := by
  simp only [createPool]
  split
  · exact ⟨rfl, rfl⟩
  · rename_i hvalid
    have hnone : validateNewPool params = none := by
      cases hv : validateNewPool params with
      | none => rfl
      | some why => exact absurd hv (hvalid why)
    simp only [holds_bind, holds_ledgerUser]
    split
    · rename_i u hu
      simp only [holds_now, holds_savePool, holds_logAt, holds_recordOperation, holds_pure]
      exact OpStep.createPool hnone hu (MemoryTables.logged_appendOperation _ _ _ _ _) rfl
    · exact ⟨rfl, rfl⟩

theorem addReserve_keptStep (pid : Nat) (amount : Decimal) :
    Holds (addReserve pid amount) s (.keptStep (.addReserve pid amount) s) := by
  simp only [addReserve, holds_ite]
  split
  · exact ⟨rfl, rfl⟩
  · rename_i hpos
    simp only [holds_bind, holds_ledgerPool]
    split
    · rename_i p hp
      have hfound := s.tables.findPool_self hp
      simp only [holds_checked]
      split
      · rename_i reserve hreserve
        simp only [refreshTempReserve, holds_bind, holds_poolStakes, holds_checked]
        split
        · rename_i free hfree
          simp only [holds_pure, holds_updatePool, hfound, holds_logAt, holds_recordOperation]
          exact OpStep.addReserve hpos hp hreserve hfree
            (MemoryTables.logged_appendOperation _ _ _ _ _) rfl
        · exact OpStep.quiet rfl rfl
      · exact OpStep.quiet rfl rfl
    · exact ⟨rfl, rfl⟩

theorem payCommission_keptStep (pid : Nat) (amount required : Decimal) :
    Holds (payCommission pid amount required) s
      (.keptStep (.payCommission pid amount required) s) := by
  simp only [payCommission, holds_bind, holds_ledgerPool]
  split
  · rename_i p hp
    have hfound := s.tables.findPool_self hp
    simp only [holds_ite, holds_logAt, holds_pure, holds_throw, holds_bind, holds_updatePool,
      hfound, holds_recordOperation]
    split
    · exact OpStep.quiet rfl rfl
    · rename_i hunpaid
      split
      · exact ⟨rfl, rfl⟩
      · rename_i hcovers
        exact OpStep.payCommission hp (by simpa using hunpaid) hcovers
          (MemoryTables.logged_appendOperation _ _ _ _ _) rfl
  · exact ⟨rfl, rfl⟩

theorem setActive_keptStep (pid : Nat) (active : Bool) :
    Holds (setActive pid active) s (.keptStep (.setActive pid active) s) := by
  simp only [setActive, holds_bind, holds_ledgerPool]
  split
  · rename_i p hp
    have hfound := s.tables.findPool_self hp
    simp only [holds_ite, holds_throw, holds_pure, holds_bind, holds_updatePool, hfound,
      holds_logAt, holds_recordOperation]
    split
    · exact ⟨rfl, rfl⟩
    · rename_i hpaid
      have hpaid : active = true → p.isCommissionPaid = true := fun h => by simpa [h] using hpaid
      split
      · exact OpStep.quiet rfl rfl
      · -- the log line depends on the new state; the write does not
        split <;> exact OpStep.setActive hp hpaid (MemoryTables.logged_appendOperation _ _ _ _ _) rfl
  · exact ⟨rfl, rfl⟩

theorem deletePool_keptStep (pid : Nat) :
    Holds (deletePoolChecked pid) s (.keptStep (.deletePool pid) s) := by
  simp only [deletePoolChecked, holds_bind, holds_ledgerPool]
  split
  · rename_i p hp
    simp only [holds_ite, holds_throw, holds_bind, holds_poolStakes, holds_deletePool, hp,
      holds_logAt, holds_recordOperation]
    split
    · exact ⟨rfl, rfl⟩
    · rename_i hzero
      split
      · exact ⟨rfl, rfl⟩
      · rename_i hactive
        split
        · exact ⟨rfl, rfl⟩
        · rename_i hunsettled
          have hsettled : ∀ st ∈ s.tables.stakesOf pid, st.isSettled = true := by
            intro st hst
            cases hs : st.isSettled with
            | true => rfl
            | false => exact absurd (List.any_eq_true.mpr ⟨st, hst, by simp [hs]⟩) hunsettled
          exact OpStep.deletePool hp (by simpa using hzero) (by simpa using hactive) hsettled
            (MemoryTables.logged_appendOperation _ _ _ _ _) rfl
  · exact ⟨rfl, rfl⟩

theorem createStake_keptStep (userId pid : Nat) (amount price : Decimal) :
    Holds (createStake userId pid amount price) s
      (.keptStep (.createStake userId pid amount price) s) := by
  simp only [createStake, holds_ite]
  split
  · exact ⟨rfl, rfl⟩
  · rename_i hamount
    split
    · exact ⟨rfl, rfl⟩
    · rename_i hprice
      simp only [holds_bind, holds_ledgerUser]
      split
      · rename_i u hu
        simp only [holds_ledgerPool]
        split
        · rename_i p hp
          simp only [holds_ite, holds_throw, holds_bind, holds_poolStakes, holds_checked]
          split
          · exact ⟨rfl, rfl⟩
          · rename_i hactive
            split
            · rename_i principal hprincipal
              split
              · rename_i fits hfits
                simp only [holds_logAt, holds_now, holds_saveStake, holds_recordOperation,
                  holds_pure]
                split
                · -- no room: the room left is reported, or overflows
                  split
                  · exact ⟨rfl, rfl⟩
                  · exact OpStep.quiet rfl rfl
                · rename_i hroom
                  have hfits : fitsCapacity principal amount p.reserve = .ok true := by
                    simpa using (show fits = true by simpa using hroom) ▸ hfits
                  split
                  · rename_i e hend
                    cases Stake.termEnd?_eq_ok hend
                    exact OpStep.createStake hamount hprice hu hp (by simpa using hactive)
                      hprincipal hfits (MemoryTables.logged_appendOperation _ _ _ _ _) rfl
                  -- a term past the clock's range fails before anything is saved
                  · exact OpStep.quiet rfl rfl
              · exact OpStep.quiet rfl rfl
            · exact OpStep.quiet rfl rfl
        · exact ⟨rfl, rfl⟩
      · exact ⟨rfl, rfl⟩

/-! ## Steps

Each walk above, read as a step: a refusal that keeps the tables and the transfers is the
step `OpStep.quiet`. `Holds` is read through its rules here, since unfolding it on
`registerUser` would evaluate `trimWhite` on a free address.
-/

section Steps

attribute [local irreducible] Holds

theorem registerUser_step (address : String) :
    Holds (registerUser address) s (.step (.registerUser address) s) :=
  (registerUser_keptStep s address).step_of_keptStep

theorem createPool_step (params : NewPool) :
    Holds (createPool params) s (.step (.createPool params) s) :=
  (createPool_keptStep s params).step_of_keptStep

theorem addReserve_step (pid : Nat) (amount : Decimal) :
    Holds (addReserve pid amount) s (.step (.addReserve pid amount) s) :=
  (addReserve_keptStep s pid amount).step_of_keptStep

theorem payCommission_step (pid : Nat) (amount required : Decimal) :
    Holds (payCommission pid amount required) s (.step (.payCommission pid amount required) s) :=
  (payCommission_keptStep s pid amount required).step_of_keptStep

theorem setActive_step (pid : Nat) (active : Bool) :
    Holds (setActive pid active) s (.step (.setActive pid active) s) :=
  (setActive_keptStep s pid active).step_of_keptStep

theorem deletePool_step (pid : Nat) :
    Holds (deletePoolChecked pid) s (.step (.deletePool pid) s) :=
  (deletePool_keptStep s pid).step_of_keptStep

theorem createStake_step (userId pid : Nat) (amount price : Decimal) :
    Holds (createStake userId pid amount price) s (.step (.createStake userId pid amount price) s) :=
  (createStake_keptStep s userId pid amount price).step_of_keptStep

end Steps

end PoolTreasury

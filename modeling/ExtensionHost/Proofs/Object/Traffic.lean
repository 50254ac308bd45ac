import ExtensionHost.Proofs.Object.Recursion

/-!
# `ExtensionHost.Proofs.Object.Traffic`: references that come and go

References to one object are taken and given up, one after the other. As long as one is
left nothing happens but that the count changes: a transfer that leaves a reference is an
assignment to the count (`act_setCount`), and so is a run of them (`traffic_setCount`).
What it assigns is the business of integers alone. The count follows the references until
it comes to that of immortal objects, and stays there from then on
(`foldl_countAfter_of_not_reaches`, `foldl_countAfter_of_reaches`).

So transfers that are balanced give the count back unless some front of them reached the
limit. An object that was brought to the limit never goes, however many references to it
are given up afterwards.
-/

set_option autoImplicit false

namespace ExtensionHost

/-- What is done with a reference to an object. -/
inductive Transfer
  | take
  | giveUp
deriving DecidableEq, Repr

namespace Transfer

/-- The operation on the object. -/
def act (r : Ref) : Transfer → Host Unit
  | take => Host.retain r
  | giveUp => Host.release r

/-- The count that a transfer leaves, if it leaves a reference. -/
def countAfter (count : Int) (transfer : Transfer) : Int :=
  if immortalCount ≤ count then count
  else
    match transfer with
    | take => count + 1
    | giveUp => count - 1

/-- How many more references are taken than given up. -/
def surplus (transfers : List Transfer) : Int := transfers.count take - transfers.count giveUp

/-- As many references are given up as are taken, and in no front of the transfers more. -/
structure Balanced (transfers : List Transfer) : Prop where
  even : transfers.count take = transfers.count giveUp
  covered : ∀ front, front <+: transfers → front.count giveUp ≤ front.count take

/-- Some front of the transfers brings a count to that of immortal objects. -/
def Reaches (count : Int) (transfers : List Transfer) : Prop :=
  ∃ front, front <+: transfers ∧ immortalCount ≤ count + surplus front

instance (transfers : List Transfer) : Decidable (Balanced transfers) :=
  decidable_of_iff (transfers.count take = transfers.count giveUp ∧
      ∀ front ∈ transfers.inits, front.count giveUp ≤ front.count take)
    ⟨fun ⟨heven, hcovered⟩ =>
        ⟨heven, fun front hfront => hcovered front ((List.mem_inits _ _).2 hfront)⟩,
      fun h => ⟨h.even, fun front hfront => h.covered front ((List.mem_inits _ _).1 hfront)⟩⟩

instance (count : Int) (transfers : List Transfer) : Decidable (Reaches count transfers) :=
  decidable_of_iff (∃ front ∈ transfers.inits, immortalCount ≤ count + surplus front)
    ⟨fun ⟨front, hfront, hle⟩ => ⟨front, (List.mem_inits _ _).1 hfront, hle⟩,
      fun ⟨front, hfront, hle⟩ => ⟨front, (List.mem_inits _ _).2 hfront, hle⟩⟩

variable {count : Int} {transfer : Transfer} {transfers front rest : List Transfer}

/-! ### Counts -/

/-- Nothing done leaves no reference. -/
@[simp] theorem surplus_nil : surplus [] = 0 := rfl

/-- A reference that is taken is one more. -/
@[simp] theorem surplus_take (rest : List Transfer) :
    surplus (take :: rest) = surplus rest + 1 := by
  simp only [surplus, List.count_cons_self, List.count_cons_of_ne (show take ≠ giveUp by decide)]
  omega

/-- A reference that is given up is one less. -/
@[simp] theorem surplus_giveUp (rest : List Transfer) :
    surplus (giveUp :: rest) = surplus rest - 1 := by
  simp only [surplus, List.count_cons_self, List.count_cons_of_ne (show giveUp ≠ take by decide)]
  omega

/-- Balanced transfers leave no reference. -/
theorem Balanced.surplus_eq (h : Balanced transfers) : surplus transfers = 0 := by
  have := h.even
  unfold surplus
  omega

/-- Balanced transfers never give up more than was taken. -/
theorem Balanced.surplus_nonneg (h : Balanced transfers) (hfront : front <+: transfers) :
    0 ≤ surplus front := by
  have := h.covered front hfront
  unfold surplus
  omega

/-- The count of an immortal object stays. -/
theorem countAfter_of_immortal (h : immortalCount ≤ count) (transfer : Transfer) :
    countAfter count transfer = count := if_pos h

/-- The count of a mortal object follows a reference that is taken. -/
theorem countAfter_take (h : count < immortalCount) : countAfter count take = count + 1 :=
  if_neg (Int.not_le.2 h)

/-- The count of a mortal object follows a reference that is given up. -/
theorem countAfter_giveUp (h : count < immortalCount) : countAfter count giveUp = count - 1 :=
  if_neg (Int.not_le.2 h)

/-- Below the limit a transfer is counted. -/
theorem countAfter_add_surplus (h : count < immortalCount) (transfer : Transfer)
    (rest : List Transfer) :
    countAfter count transfer + surplus rest = count + surplus (transfer :: rest) := by
  cases transfer with
  | take =>
    rw [countAfter_take h, surplus_take]
    omega
  | giveUp =>
    rw [countAfter_giveUp h, surplus_giveUp]
    omega

/-- No transfer brings a count past the limit. -/
theorem countAfter_le (h : count < immortalCount) (transfer : Transfer) :
    countAfter count transfer ≤ immortalCount := by
  cases transfer with
  | take =>
    rw [countAfter_take h]
    omega
  | giveUp =>
    rw [countAfter_giveUp h]
    omega

/-- What the transfers after the first bring to the limit, all of them do. -/
theorem reaches_cons_iff (h : count < immortalCount) :
    Reaches count (transfer :: rest) ↔ Reaches (countAfter count transfer) rest := by
  constructor
  · rintro ⟨front, hfront, hle⟩
    rcases List.prefix_cons_iff.1 hfront with rfl | ⟨later, rfl, hlater⟩
    · rw [surplus_nil] at hle
      omega
    · exact ⟨later, hlater, by rw [countAfter_add_surplus h]; exact hle⟩
  · rintro ⟨front, hfront, hle⟩
    rw [countAfter_add_surplus h] at hle
    exact ⟨transfer :: front, (List.prefix_cons_inj transfer).2 hfront, hle⟩

/-- A count that is at the limit stays. -/
theorem foldl_countAfter_of_immortal (h : immortalCount ≤ count) (transfers : List Transfer) :
    transfers.foldl countAfter count = count := by
  induction transfers with
  | nil => rfl
  | cons transfer rest ih => rw [List.foldl_cons, countAfter_of_immortal h, ih]

/-- A count that does not come to the limit is the number of references. -/
theorem foldl_countAfter_of_not_reaches (h : ¬Reaches count transfers) :
    transfers.foldl countAfter count = count + surplus transfers := by
  induction transfers generalizing count with
  | nil => rw [List.foldl_nil, surplus_nil, Int.add_zero]
  | cons transfer rest ih =>
    have hlt : count < immortalCount := by
      refine Int.not_le.1 fun hle => h ⟨[], List.nil_prefix, ?_⟩
      rw [surplus_nil, Int.add_zero]
      exact hle
    rw [List.foldl_cons, ih (mt (reaches_cons_iff hlt).2 h), countAfter_add_surplus hlt]

/-- A count that comes to the limit stays there. -/
theorem foldl_countAfter_of_reaches (hcount : count ≤ immortalCount) (h : Reaches count transfers) :
    transfers.foldl countAfter count = immortalCount := by
  induction transfers generalizing count with
  | nil =>
    obtain ⟨front, hfront, hle⟩ := h
    rw [List.prefix_nil.1 hfront, surplus_nil] at hle
    rw [List.foldl_nil]
    omega
  | cons transfer rest ih =>
    by_cases hlt : count < immortalCount
    · exact ih (countAfter_le hlt transfer) ((reaches_cons_iff hlt).1 h)
    · obtain rfl : count = immortalCount := Int.le_antisymm hcount (Int.not_lt.1 hlt)
      exact foldl_countAfter_of_immortal (Int.le_refl _) _

/-- While no more references are given up than were taken there is always one left. -/
theorem one_le_foldl_countAfter (hcount : 1 ≤ count) (hsurplus : 0 ≤ surplus front) :
    1 ≤ front.foldl countAfter count := by
  by_cases himmortal : immortalCount ≤ count
  · rw [foldl_countAfter_of_immortal himmortal]
    exact hcount
  · by_cases hreaches : Reaches count front
    · rw [foldl_countAfter_of_reaches (Int.le_of_not_le himmortal) hreaches]
      decide
    · rw [foldl_countAfter_of_not_reaches hreaches]
      omega

end Transfer

namespace World

open Transfer

variable {w w' : World} {r : Ref} {object : Object} {count : Int} {owned : Multiset Ref}
  {transfer : Transfer} {transfers front : List Transfer}

/-- References to an object are taken and given up, one after the other. -/
def traffic (r : Ref) : List Transfer → Host Unit
  | [] => pure ()
  | transfer :: rest => do
    transfer.act r
    traffic r rest

/-- After the first transfer the others go on. -/
theorem traffic_cons_ok (h : transfer.act r w = .ok () w') (rest : List Transfer) :
    traffic r (transfer :: rest) w = traffic r rest w' := Host.run_bind_ok h _

/-- After some transfers the others go on. -/
theorem traffic_append_ok (h : traffic r front w = .ok () w') (rest : List Transfer) :
    traffic r (front ++ rest) w = traffic r rest w' := by
  induction front generalizing w with
  | nil =>
    cases h
    rfl
  | cons transfer front ih =>
    have hrun := Host.run_bind (transfer.act r) (fun _ => traffic r front) w
    cases hact : transfer.act r w with
    | error fault w₁ =>
      rw [hact] at hrun
      cases hrun.symm.trans h
    | ok u w₁ =>
      rw [hact] at hrun
      exact (traffic_cons_ok hact _).trans (ih (hrun.symm.trans h))

/-! ### The count of one object -/

/-- The world with another count of an object. -/
def setCount (w : World) (r : Ref) (count : Int) : World :=
  w.modify r fun object => { object with count }

/-- The object has the count that was set. -/
theorem object?_setCount_self (hobject : w.object? r = some object) (count : Int) :
    (w.setCount r count).object? r = some { object with count } := by
  rw [setCount, object?_setCount w r r fun _ => count, if_pos rfl, hobject, Option.map_some]

/-- Changing an object twice is changing it once by both. -/
theorem modify_modify (w : World) (r : Ref) (f g : Object → Object) :
    (w.modify r f).modify r g = w.modify r (g ∘ f) := by
  have hobjects : (w.objects.modify r f).modify r g = w.objects.modify r (g ∘ f) := by
    refine Array.ext_getElem? fun s => ?_
    simp only [Array.getElem?_modify]
    split
    · rw [Option.map_map]
    · rfl
  exact congrArg (fun objects => { w with objects }) hobjects

/-- Setting the count that an object has changes nothing. -/
theorem setCount_eq_self (hobject : w.object? r = some object) :
    w.setCount r object.count = w := by
  have hobjects : w.objects.modify r (fun other => { other with count := object.count }) =
      w.objects := by
    refine Array.ext_getElem? fun s => ?_
    rw [Array.getElem?_modify]
    split
    · next hrs =>
      rw [← hrs, (object?_eq_some.1 hobject).1, Option.map_some]
    · rfl
  exact congrArg (fun objects => { w with objects }) hobjects

/-- A transfer that leaves a reference to the object changes its count and nothing else. -/
theorem act_setCount (hobject : w.object? r = some object) (transfer : Transfer)
    (hleft : 1 ≤ transfer.countAfter count) :
    transfer.act r (w.setCount r count) = .ok () (w.setCount r (transfer.countAfter count)) := by
  have hfound := object?_setCount_self hobject count
  have himmortal : Object.isImmortal { object with count } = decide (immortalCount ≤ count) := rfl
  by_cases hle : immortalCount ≤ count
  · rw [countAfter_of_immortal hle]
    rw [decide_eq_true hle] at himmortal
    cases transfer with
    | take =>
      show EStateM.Result.ok () ((w.setCount r count).retain r) = _
      simp only [World.retain, hfound, himmortal, if_true]
    | giveUp =>
      show World.release r (w.setCount r count) = _
      simp only [World.release, releaseWith, lower, hfound, himmortal, if_true]
  · have hlt : count < immortalCount := Int.not_le.1 hle
    rw [decide_eq_false hle] at himmortal
    cases transfer with
    | take =>
      rw [countAfter_take hlt]
      show EStateM.Result.ok () ((w.setCount r count).retain r) = _
      simp only [World.retain, hfound, himmortal, Bool.false_eq_true, if_false]
      exact congrArg (EStateM.Result.ok ()) (modify_modify w r _ _)
    | giveUp =>
      rw [countAfter_giveUp hlt] at hleft ⊢
      -- a reference is left, so this one is not the last, and no routine is run
      have hpos : ¬count ≤ 0 := by omega
      have hlast : decide (count = 1) = false := decide_eq_false (by omega)
      show World.release r (w.setCount r count) = _
      simp only [World.release, releaseWith, lower, hfound, himmortal, Bool.false_eq_true, if_false,
        hpos, hlast]
      exact congrArg (EStateM.Result.ok ()) (modify_modify w r _ _)

/-- By induction on the transfers, each of which leaves a reference. -/
theorem traffic_setCount (hobject : w.object? r = some object) (count : Int)
    (hleft : ∀ front, front <+: transfers → 1 ≤ front.foldl countAfter count) :
    traffic r transfers (w.setCount r count) =
      .ok () (w.setCount r (transfers.foldl countAfter count)) := by
  induction transfers generalizing count with
  | nil => rfl
  | cons transfer rest ih =>
    -- the condition on all fronts is what makes each single transfer leave a reference
    have hfirst := hleft [transfer] ⟨rest, rfl⟩
    rw [traffic_cons_ok (act_setCount hobject transfer hfirst)]
    exact ih _ fun front hfront =>
      hleft (transfer :: front) ((List.prefix_cons_inj transfer).2 hfront)

/-- Transfers of which no front gives up more references than it takes. -/
theorem traffic_of_covered (hobject : w.object? r = some object) (hcount : 1 ≤ object.count)
    (hcovered : ∀ front, front <+: transfers → 0 ≤ surplus front) :
    traffic r transfers w = .ok () (w.setCount r (transfers.foldl countAfter object.count)) := by
  have hrun := traffic_setCount hobject object.count fun front hfront =>
    one_le_foldl_countAfter hcount (hcovered front hfront)
  rw [setCount_eq_self hobject] at hrun
  exact hrun

/-- The references to an immortal object are not counted. -/
theorem traffic_of_immortal (hobject : w.object? r = some object)
    (himmortal : object.isImmortal = true) (transfers : List Transfer) :
    traffic r transfers w = .ok () w := by
  have hle : immortalCount ≤ object.count := of_decide_eq_true himmortal
  have hleft (front : List Transfer) (_ : front <+: transfers) :
      1 ≤ front.foldl countAfter object.count := by
    rw [foldl_countAfter_of_immortal hle]
    exact Int.le_trans (by decide) hle
  have hrun := traffic_setCount hobject object.count hleft
  rw [foldl_countAfter_of_immortal hle, setCount_eq_self hobject] at hrun
  exact hrun

/-! ### The last references -/

/-- References are given up, but not all. -/
theorem traffic_giveUp (hobject : w.object? r = some object) {k : Nat}
    (hmortal : count < immortalCount) (hleft : k < count) :
    traffic r (List.replicate k giveUp) (w.setCount r count) =
      .ok () (w.setCount r (count - k)) := by
  induction k generalizing count with
  | zero =>
    rw [Int.natCast_zero, Int.sub_zero]
    rfl
  | succ k ih =>
    have hafter : countAfter count giveUp = count - 1 := countAfter_giveUp hmortal
    have hstep := act_setCount hobject giveUp (by rw [hafter]; omega)
    rw [hafter] at hstep
    have hrest := ih (show count - 1 < immortalCount by omega) (by omega)
    rw [List.replicate_succ, traffic_cons_ok hstep, hrest]
    exact congrArg (fun n => EStateM.Result.ok () (w.setCount r n)) (by omega)

/-- Whoever gives up references has them no longer. -/
theorem Sound.without_given {k : Nat} (h : w.Sound (Multiset.replicate k r + owned))
    (hrun : traffic r (List.replicate k giveUp) w = .ok () w') : w'.Sound owned := by
  induction k generalizing w with
  | zero =>
    cases hrun
    rw [Multiset.replicate_zero, zero_add] at h
    exact h
  | succ k ih =>
    rw [Multiset.replicate_succ, Multiset.cons_add] at h
    obtain ⟨ended, w₁, hfirst, hsound, -⟩ := h.release
    have hact : giveUp.act r w = .ok () w₁ := hfirst
    rw [List.replicate_succ, traffic_cons_ok hact] at hrun
    exact ih hsound hrun

/-- The object of which the last reference was given up is the first to go. -/
theorem AsRecursion.mem {rs : List Ref} (h : w.AsRecursion r rs w') : r ∈ rs := by
  obtain ⟨w₁, w₂, -, hdrains, -⟩ := h.oneByOne
  cases hdrains with
  | done hpending => cases hpending
  | next hpending =>
    cases hpending
    exact List.mem_cons_self

/-- The references to an object are given up by somebody who has them all. The object goes
with the last one, and does so once. -/
theorem Sound.ends_once {n : Nat} (hobject : w.object? r = some object)
    (hmortal : object.isImmortal = false) (hcount : object.count = n + 1)
    (h : w.Sound (Multiset.replicate (n + 1) r + owned)) :
    ∃ rs w', traffic r (List.replicate (n + 1) giveUp) w = .ok () w' ∧ w'.Sound owned ∧ r ∈ rs ∧
      (w.setCount r 1).AsRecursion r rs w' := by
  have hlt : object.count < immortalCount := Int.lt_of_not_ge (of_decide_eq_false hmortal)
  -- all but one are given up without a release routine
  have hfront := traffic_giveUp hobject hlt (show n < object.count by omega)
  rw [setCount_eq_self hobject, show object.count - n = 1 by omega] at hfront
  have hsound : (w.setCount r 1).Sound (r ::ₘ owned) := by
    refine Sound.without_given (k := n) ?_ hfront
    rw [Multiset.add_cons, ← Multiset.cons_add, ← Multiset.replicate_succ]
    exact h
  have hfound := object?_setCount_self hobject 1
  obtain ⟨w₁, hlower⟩ := hsound.lower_last (count?_of_object? hfound)
  obtain ⟨rs, w₂, hdrains, hdrained, hrelease⟩ := hsound.release_last hlower
  have hrecursion := hdrains.asRecursion hsound hlower
  refine ⟨rs, w₂.idle, ?_, hdrained.sound, hrecursion.mem, hrecursion⟩
  have hlast : giveUp.act r (w.setCount r 1) = .ok () w₂.idle := hrelease
  rw [List.replicate_succ', traffic_append_ok hfront]
  exact traffic_cons_ok hlast []

/-! ### Balanced transfers -/

/-- What balanced transfers do to an object that counts its references.

* `stays`: in between the object is there, and nothing but its count is different;
* `restores`: if no front of the transfers brought the count to the limit, the world is
  what it was;
* `goes`: in this case, references may be given up until one is left, and if they belong to
  whoever gives them up, the object goes with the last one and does so once;
* `sticks`: if a front of the transfers brought the count to the limit, it is there from
  then on, whatever follows. -/
structure Rebalances (w : World) (r : Ref) (object : Object) (transfers : List Transfer) :
    Prop where
  stays : ∀ front, front <+: transfers → ∃ count, 1 ≤ count ∧
    traffic r front w = .ok () (w.setCount r count) ∧
    (w.setCount r count).object? r = some { object with count }
  restores : ¬Reaches object.count transfers → traffic r transfers w = .ok () w
  goes : ¬Reaches object.count transfers → ∀ n : Nat, object.count = n →
    (∀ k, k < n → traffic r (transfers ++ List.replicate k giveUp) w =
      .ok () (w.setCount r (n - k))) ∧
    ∀ owned, w.Sound (Multiset.replicate n r + owned) → ∃ rs w',
      traffic r (transfers ++ List.replicate n giveUp) w = .ok () w' ∧ w'.Sound owned ∧ r ∈ rs ∧
        (w.setCount r 1).AsRecursion r rs w'
  sticks : ∀ front, front <+: transfers → Reaches object.count front → ∀ more,
    traffic r (front ++ more) w = .ok () (w.setCount r immortalCount)

/-- Balanced transfers leave an object as it was unless they bring its count to the limit,
which makes it immortal for good. Transfers of an immortal object change nothing, balanced
or not. -/
theorem traffic_rebalances (hobject : w.object? r = some object) :
    (object.isImmortal = false → 1 ≤ object.count → ∀ transfers, Balanced transfers →
      w.Rebalances r object transfers) ∧
    (object.isImmortal = true → ∀ transfers, traffic r transfers w = .ok () w) := by
  refine ⟨fun hmortal hcount transfers hbalanced => ?_, traffic_of_immortal hobject⟩
  have hlt : object.count < immortalCount := Int.lt_of_not_ge (of_decide_eq_false hmortal)
  -- at no point are more references given up than there are, so the object is there all
  -- along
  have hfront (front : List Transfer) (h : front <+: transfers) :
      traffic r front w = .ok () (w.setCount r (front.foldl countAfter object.count)) :=
    traffic_of_covered hobject hcount fun first hfirst =>
      hbalanced.surplus_nonneg (hfirst.trans h)
  have hrestores (h : ¬Reaches object.count transfers) : traffic r transfers w = .ok () w := by
    rw [hfront transfers (List.prefix_refl _), foldl_countAfter_of_not_reaches h,
      hbalanced.surplus_eq, Int.add_zero, setCount_eq_self hobject]
  constructor
  case stays =>
    intro front h
    exact ⟨_, one_le_foldl_countAfter hcount (hbalanced.surplus_nonneg h), hfront front h,
      object?_setCount_self hobject _⟩
  case restores => exact hrestores
  case goes =>
    intro h n hn
    refine ⟨fun k hk => ?_, fun owned hsound => ?_⟩
    · have hrun := traffic_giveUp hobject hlt (show k < object.count by omega)
      rw [setCount_eq_self hobject, hn] at hrun
      rw [traffic_append_ok (hrestores h), hrun]
    · obtain ⟨n, rfl⟩ : ∃ m, n = m + 1 := ⟨n - 1, by omega⟩
      rw [traffic_append_ok (hrestores h)]
      exact hsound.ends_once hobject hmortal hn
  case sticks =>
    intro front h hreaches more
    have hsticks := traffic_of_immortal (object?_setCount_self hobject immortalCount) rfl more
    rw [traffic_append_ok (hfront front h), foldl_countAfter_of_reaches (Int.le_of_lt hlt) hreaches,
      hsticks]

/-- An integer to which there is one reference. -/
def withSeven : World :=
  match (Object.new .int (.integer 7)).run (World.new (.bounded 0x1000000) {}) with
  | .ok _ w => w
  | .error _ w => w

/-- The integer with more references. -/
def withSevenShared (more : Nat) : World :=
  withSeven.modify 3 fun object => { object with count := object.count + more }

/-- A box to which the caller has many references is in order. -/
theorem sound_withSevenShared (more : Nat) :
    (withSevenShared more).Sound (Multiset.replicate (more + 1) 3 + 0) := by
  have hmakes : Makes .int TypeObject.int.basicSize (.integer 7) := ⟨nofun, nofun, nofun⟩
  obtain ⟨result, w', hrun, hsound, -⟩ :=
    creates_new hmakes (World.new (.bounded 0x1000000) {}) 0 (sound_new _ _)
  cases (show (Object.new .int (.integer 7)).run _ = .ok (.ok 3) withSeven from rfl).symm.trans hrun
  rw [Multiset.replicate_succ, Multiset.cons_add, ← Multiset.add_cons]
  exact hsound.raise rfl rfl more

/-- The box is there with its count. -/
theorem object?_withSevenShared (more : Nat) : (withSevenShared more).object? 3 =
    some { fresh .int (.integer 7) 0 with count := 1 + more } := rfl

/-- Two more references are taken and given up in between. -/
theorem traffic_rebalances_withSevenShared :
    (withSevenShared 2).object? 3 = some { fresh .int (.integer 7) 0 with count := 3 } ∧
    (withSevenShared 2).Sound (Multiset.replicate 3 3 + 0) ∧
    Balanced [take, take, giveUp, take, giveUp, giveUp] ∧
    ¬Reaches 3 [take, take, giveUp, take, giveUp, giveUp] ∧
    traffic 3 [take, take, giveUp, take, giveUp, giveUp] (withSevenShared 2) =
      .ok () (withSevenShared 2) ∧
    (∃ (rs : List Ref) (w' : World),
      traffic 3 ([take, take, giveUp, take, giveUp, giveUp] ++ List.replicate 3 giveUp)
        (withSevenShared 2) = .ok () w' ∧ 3 ∈ rs ∧ rs.Nodup ∧ w'.object? 3 = none) ∧
    traffic Ref.none [giveUp, giveUp] (withSevenShared 2) = .ok () (withSevenShared 2) ∧
    Reaches (immortalCount - 1) [take, giveUp] ∧
    traffic 3 ([take, giveUp] ++ [giveUp, giveUp]) (withSevenShared 0x3FFFFFFFFFFFFFFE) =
      .ok () ((withSevenShared 0x3FFFFFFFFFFFFFFE).setCount 3 immortalCount) := by
  have hsound := sound_withSevenShared 2
  have hbalanced : Balanced [take, take, giveUp, take, giveUp, giveUp] := by decide
  have hbelow : ¬Reaches 3 [take, take, giveUp, take, giveUp, giveUp] := by decide
  have hreaches : Reaches (immortalCount - 1) [take, giveUp] := by decide
  have hshared := (traffic_rebalances (object?_withSevenShared 2)).1 rfl (by decide) _ hbalanced
  obtain ⟨rs, w', hrun, -, hmem, hrecursion⟩ := (hshared.goes hbelow 3 rfl).2 0 hsound
  have hcrowded := (traffic_rebalances (object?_withSevenShared 0x3FFFFFFFFFFFFFFE)).1 rfl
    (by decide) [take, giveUp] (by decide)
  have hnone : (withSevenShared 2).object? Ref.none = some (.immortal .none .nothing) := rfl
  exact ⟨rfl, hsound, hbalanced, hbelow, hshared.restores hbelow,
    ⟨rs, w', hrun, hmem, hrecursion.once, ((hrecursion.went 3).1 hmem).2⟩,
    (traffic_rebalances hnone).2 rfl [giveUp, giveUp], hreaches,
    hcrowded.sticks [take, giveUp] (List.prefix_refl _) hreaches [giveUp, giveUp]⟩

/-- The integer has all references but one that make it immortal. The next one is counted
when it is taken, and not when it is given up. -/
theorem count_traffic_withSevenShared :
    (withSevenShared 0x3FFFFFFFFFFFFFFE).Sound (Multiset.replicate 0x3FFFFFFFFFFFFFFF 3 + 0) ∧
    (withSevenShared 0x3FFFFFFFFFFFFFFE).count? 3 = some (immortalCount - 1) ∧
    Balanced [take, giveUp] ∧
    ∃ w', traffic 3 [take, giveUp] (withSevenShared 0x3FFFFFFFFFFFFFFE) = .ok () w' ∧
      w'.count? 3 = some immortalCount ∧
      w'.count? 3 ≠ (withSevenShared 0x3FFFFFFFFFFFFFFE).count? 3 := by
  have hbalanced : Balanced [take, giveUp] := by decide
  have hobject := object?_withSevenShared 0x3FFFFFFFFFFFFFFE
  have hrun :=
    traffic_of_covered hobject (by decide) fun front (hfront : front <+: [take, giveUp]) =>
    hbalanced.surplus_nonneg hfront
  rw [foldl_countAfter_of_reaches (by decide) (by decide)] at hrun
  have hcount := count?_of_object? hobject
  have hcount' := count?_of_object? (object?_setCount_self hobject immortalCount)
  refine ⟨sound_withSevenShared _, hcount, hbalanced, _, hrun, hcount', ?_⟩
  rw [hcount, hcount']
  decide

end World

end ExtensionHost

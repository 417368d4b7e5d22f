import AgentWallet.Channels.Mix
/-!
# The bootstrap estimate (`_simulate_bootstrap`)

The simulation opens a channel with the whole balance, drains it by a swap and goes
on with what comes back. No sat is lost or made: what is not fee or stays in a channel
is the balance of the next round. The one exception is a swap whose fee is above
what it drains: the fee is counted in full, and nothing comes back.
-/

namespace AgentWallet.Channels.Bootstrap

open List

/-- The arguments of a simulation. Percentages and fee rates are exact. -/
structure Terms where
  satPerVbMedium : ℚ
  satPerVbHigh : ℚ
  boltzMin : ℤ
  boltzMax : ℤ
  targetInboundSats : Option ℤ := none

def Terms.openFee (terms : Terms) : ℤ := ⌈250 * terms.satPerVbMedium⌉

def Terms.swapMiner (terms : Terms) : ℤ := ⌈300 * max 0 terms.satPerVbHigh⌉

/-- A round, with the variables of the loop body. -/
structure Round where
  balance : ℤ
  reserve : ℤ
  capacity : ℤ
  drain : ℤ
  leftover : ℤ
  openFee : ℤ
  swapFee : ℤ
deriving DecidableEq

def Round.recycled (r : Round) : ℤ := max 0 (r.drain - r.swapFee)

/-- The loop body up to the entry in `rounds`, if it does not break. -/
def nextRound (terms : Terms) (balance : ℤ) : Option Round :=
  let whole := balance - terms.openFee
  if whole < 150000 then none
  else
    let reserve : ℤ := reserveForCapacity whole.toNat
    let drain := max 0 (whole - reserve) * 100 / 103
    let capped := (terms.boltzMax * 103 + 99) / 100 + reserve
    let (capacity, drain, leftover) :=
      if terms.boltzMax < drain then (capped, terms.boltzMax, whole - capped) else (whole, drain, 0)
    if drain < terms.boltzMin then none
    else
      let swapFee := (drain + 399) / 400 + terms.swapMiner
      some { balance, reserve, capacity, drain, leftover, openFee := terms.openFee, swapFee }

structure Simulation where
  balance : ℤ
  rounds : List Round := []
  totalInbound : ℤ := 0
  totalFees : ℤ := 0
  residualOutbound : ℤ := 0

def Simulation.add (s : Simulation) (r : Round) : Simulation where
  balance := r.leftover + r.recycled
  rounds := s.rounds ++ [r]
  totalInbound := s.totalInbound + r.drain
  totalFees := s.totalFees + (r.openFee + r.swapFee)
  residualOutbound := s.residualOutbound + (r.capacity - r.drain)

def simulate (terms : Terms) : ℕ → Simulation → Simulation
  | 0, s => s
  | n + 1, s =>
    match nextRound terms s.balance with
    | none => s
    | some r =>
      if terms.targetInboundSats.any (· ≤ (s.add r).totalInbound) then s.add r else simulate terms n (s.add r)

def simulateBootstrap (terms : Terms) (maxRounds deposit : ℤ) : Simulation :=
  simulate terms maxRounds.toNat { balance := deposit }

/-- A round spends no more than it has, and drains no more than it can. -/
structure Round.Sound (terms : Terms) (r : Round) : Prop where
  fits : r.capacity + r.openFee ≤ r.balance
  reserved : reserveForCapacity r.capacity.toNat ≤ r.reserve
  routed : 103 * r.drain ≤ 100 * (r.capacity - r.reserve)
  swappable : terms.boltzMin ≤ r.drain ∧ r.drain ≤ terms.boltzMax
  leftover : 0 ≤ r.leftover

/-- What the fee of the swap is above the drain. -/
def Round.shortfall (r : Round) : ℤ := max 0 (r.swapFee - r.drain)

variable {terms : Terms} {balance : ℤ} {r : Round}

lemma nextRound_sound (h : nextRound terms balance = some r) :
    r.Sound terms ∧ r.balance = balance ∧ r.leftover = balance - r.openFee - r.capacity := by
  simp only [nextRound, Option.ite_none_left_eq_some, Option.some.injEq] at h
  obtain ⟨hf, hm, rfl⟩ := h
  refine ⟨?_, rfl, ?_⟩
  -- at the cap, the smaller capacity still has the reserve of the whole balance
  · constructor <;> grind [reserveForCapacity]
  · grind

/-- The sats of the deposit are the balance, the fees, and what stays in the channels. -/
structure Simulation.Accounted (terms : Terms) (deposit : ℤ) (s : Simulation) : Prop where
  rounds : ∀ r ∈ s.rounds, r.Sound terms
  sum : s.balance + s.totalFees + s.residualOutbound = deposit + (s.rounds.map Round.shortfall).sum

lemma Simulation.Accounted.add {deposit : ℤ} {s : Simulation} (h : s.Accounted terms deposit)
    (hr : nextRound terms s.balance = some r) : (s.add r).Accounted terms deposit := by
  obtain ⟨hs, -, hl⟩ := nextRound_sound hr
  refine ⟨fun r' hr' => ?_, ?_⟩
  · rcases mem_append.1 hr' with hr' | hr'
    · exact h.rounds r' hr'
    · exact mem_singleton.1 hr' ▸ hs
  · have hsu := h.sum
    simp only [Simulation.add, map_append, sum_append, map_singleton, sum_singleton,
      Round.recycled, Round.shortfall]
    omega

lemma simulate_accounted {deposit : ℤ} (n : ℕ) {s : Simulation} (h : s.Accounted terms deposit) :
    (simulate terms n s).Accounted terms deposit := by
  fun_induction simulate terms n s with
  | case1 => exact h
  | case2 => exact h
  | case3 n s r hr => exact h.add hr
  | case4 n s r hr _ ih => exact ih (h.add hr)

theorem simulation_accounted (terms : Terms) (maxRounds deposit : ℤ) :
    (simulateBootstrap terms maxRounds deposit).Accounted terms deposit :=
  simulate_accounted _ ⟨by simp, by simp⟩

/-- At 1000 sat/vB the swap costs more than it drains. -/
theorem simulation_overcounts :
    let s := simulateBootstrap ⟨1, 1000, 25000, 25000000, none⟩ 40 200000
    s.balance + s.totalFees + s.residualOutbound ≠ 200000 := by
  decide +kernel

end AgentWallet.Channels.Bootstrap

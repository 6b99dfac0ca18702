import FluidChip.Proofs.Meaning
import FluidChip.Proofs.Rule.Hydraulic
import Mathlib.Algebra.BigOperators.Group.Finset.Sigma
import Mathlib.Algebra.BigOperators.Ring.Finset

/-!
# Flows into a node

A rule adds up the flows into a node port by port; the law of conservation counts
the channels that end at the node against those that start there.  Where no port is
listed twice, the sums differ by the channels from a port to itself: such a channel
is met at one port only, with the sign of its target.
-/

namespace FluidChip

open Formula Sexp

variable {K : Type*} [Field K]

namespace Setting

variable (g : Setting) (v : Symbol → K)

def flowOf (c : ConnectionId) : K := g.amount v (.connection .flow c)

def channelIds : List ConnectionId := g.channels.map (·.2)

def inflows (n : NodeId) : List K :=
  (g.schematic.node n).ports.values.flatMap fun port =>
    (g.channelsAtPort port).map (g.signedFlow v port)

/-- The flow of the channels that end at a node less that of those that start
there. -/
def netFlow (n : NodeId) : K :=
  ((g.channelIds.filter fun c => g.schematic.targetNode c = n).map (g.flowOf v)).sum -
    ((g.channelIds.filter fun c => g.schematic.sourceNode c = n).map (g.flowOf v)).sum

variable {g v}

theorem channelsAtPort_eq (port : PortId) :
    g.channelsAtPort port = g.channelIds.filter fun c =>
      (g.schematic.connection c).source = port ∨ (g.schematic.connection c).target = port := by
  simp only [channelsAtPort, Schematic.connectionsAtPort, channelIds, channels,
    List.filter_map, List.filter_filter]
  refine congrArg (List.map _) (List.filter_congr fun q _ => ?_)
  exact Bool.and_comm _ _

theorem nodup_channelIds {names : Catalog String}
    (distinct : g.schematic.namespace? = .ok names) : g.channelIds.Nodup :=
  (Schematic.nodup_connections distinct).sublist (List.filter_sublist.map _)

theorem signedFlow_at_port (port : PortId) (c : ConnectionId) :
    (if (g.schematic.connection c).source = port ∨ (g.schematic.connection c).target = port
      then g.signedFlow v port c else 0) =
      (if (g.schematic.connection c).target = port then g.flowOf v c else 0) -
        (if (g.schematic.connection c).source = port then g.flowOf v c else 0) +
        if (g.schematic.connection c).source = port then
          if (g.schematic.connection c).target = port then g.flowOf v c else 0
        else 0 := by
  unfold signedFlow
  by_cases target : (g.schematic.connection c).target = port <;>
    by_cases source : (g.schematic.connection c).source = port <;>
    simp [target, source, flowOf]

theorem sum_filtered (channels : g.channelIds.Nodup) (p : ConnectionId → Prop)
    [DecidablePred p] (f : ConnectionId → K) :
    ((g.channelIds.filter fun c => p c).map f).sum =
      ∑ c ∈ g.channelIds.toFinset, if p c then f c else 0 := by
  rw [← List.sum_toFinset f (channels.filter _), List.toFinset_filter, Finset.sum_filter]
  simp

variable (g v) in
/-- What one channel brings into a node. -/
def netShare (n : NodeId) (c : ConnectionId) : K :=
  (if g.schematic.targetNode c = n then g.flowOf v c else 0) -
    if g.schematic.sourceNode c = n then g.flowOf v c else 0

theorem netFlow_eq_sum (channels : g.channelIds.Nodup) (n : NodeId) :
    g.netFlow v n = ∑ c ∈ g.channelIds.toFinset, g.netShare v n c := by
  simp only [netShare]
  rw [Finset.sum_sub_distrib, netFlow, sum_filtered channels, sum_filtered channels]

/-! ## Channels at a node -/

section Ends

variable (g v) (n : NodeId)

/-- The channels that end at a port of a node. -/
def entering : List ConnectionId := g.channelIds.filter fun c =>
  (g.schematic.connection c).target ∈ (g.schematic.node n).ports.values

/-- The channels that start at a port of a node. -/
def leaving : List ConnectionId := g.channelIds.filter fun c =>
  (g.schematic.connection c).source ∈ (g.schematic.node n).ports.values

/-- The channels that end at the very port of a node where they start. -/
def looping : List ConnectionId := g.channelIds.filter fun c =>
  (g.schematic.connection c).source ∈ (g.schematic.node n).ports.values ∧
    (g.schematic.connection c).target = (g.schematic.connection c).source

def totalFlow (channels : List ConnectionId) : K := (channels.map (g.flowOf v)).sum

end Ends

variable {n : NodeId}

/-- Port by port, a channel from a port to itself is counted as if it only ended there. -/
theorem sum_inflows_ports (ports : (g.schematic.node n).ports.values.Nodup)
    (channels : g.channelIds.Nodup) : (g.inflows v n).sum =
      g.totalFlow v (g.entering n) - g.totalFlow v (g.leaving n) +
        g.totalFlow v (g.looping n) := by
  have atPort (port : PortId) : ((g.channelsAtPort port).map (g.signedFlow v port)).sum =
      ∑ c ∈ g.channelIds.toFinset,
        ((if (g.schematic.connection c).target = port then g.flowOf v c else 0) -
          (if (g.schematic.connection c).source = port then g.flowOf v c else 0) +
          if (g.schematic.connection c).source = port then
            if (g.schematic.connection c).target = port then g.flowOf v c else 0
          else 0) := by
    rw [channelsAtPort_eq, sum_filtered channels]
    exact Finset.sum_congr rfl fun c _ => signedFlow_at_port port c
  have total : (g.inflows v n).sum = ∑ port ∈ (g.schematic.node n).ports.values.toFinset,
      ((g.channelsAtPort port).map (g.signedFlow v port)).sum := by
    rw [List.sum_toFinset _ ports, inflows, List.flatMap_def, List.sum_flatten, List.map_map]
    rfl
  -- summed over ports first, each channel keeps one term for each end on the node
  rw [total, Finset.sum_congr rfl fun port _ => atPort port, Finset.sum_comm]
  simp only [Finset.sum_add_distrib, Finset.sum_sub_distrib, Finset.sum_ite_eq, totalFlow,
    entering, leaving, looping, sum_filtered channels, List.mem_toFinset, ite_and]

/-- Channels from a port to itself aside, the sum over ports is that over channels. -/
theorem sum_inflows (ports : (g.schematic.node n).ports.values.Nodup)
    (channels : g.channelIds.Nodup)
    (loops : ∀ c ∈ g.channelIds,
      (g.schematic.connection c).source = (g.schematic.connection c).target →
        g.flowOf v c = 0)
    (sources : ∀ c ∈ g.channelIds, (g.schematic.connection c).source ∈
      (g.schematic.node n).ports.values ↔ g.schematic.sourceNode c = n)
    (targets : ∀ c ∈ g.channelIds, (g.schematic.connection c).target ∈
      (g.schematic.node n).ports.values ↔ g.schematic.targetNode c = n) :
    (g.inflows v n).sum = g.netFlow v n := by
  have still : g.totalFlow v (g.looping n) = 0 := by
    refine List.sum_eq_zero fun flow hflow => ?_
    obtain ⟨c, hc, rfl⟩ := List.mem_map.mp hflow
    obtain ⟨channel, looped⟩ := List.mem_filter.mp hc
    exact loops c channel (of_decide_eq_true looped).2.symm
  have entering : g.entering n = g.channelIds.filter fun c => g.schematic.targetNode c = n :=
    List.filter_congr fun c hc => decide_eq_decide.mpr (targets c hc)
  have leaving : g.leaving n = g.channelIds.filter fun c => g.schematic.sourceNode c = n :=
    List.filter_congr fun c hc => decide_eq_decide.mpr (sources c hc)
  rw [sum_inflows_ports ports channels, still, add_zero, entering, leaving]
  rfl

end Setting

end FluidChip

/-
  ModJanus.Lib.Mailbox

  A mailbox that takes messages from one channel and hands each of them over once.

  A message either answers the one request that may be in flight, and then waits
  in `slot` until the requester takes it, or it is for the consumer: delivered at
  once, or put off on `queue`, from which a later walk delivers it.  A walk first
  takes the whole queue away (`walking`), so messages may be put off again while
  it goes on.  A message is kept with its position on the channel.

  Two properties of whole runs: as long as no reply finds the slot taken, every
  message that has arrived is in exactly one place (`Reach.conserved`); as long as
  no message is delivered past one that was put off, messages are delivered in the
  order in which they arrived (`Reach.ordered`).  Together they say what was delivered
  once the box is empty (`Conserved.delivered_eq`).
-/
import Mathlib.Data.List.Basic
import Mathlib.Data.List.Pairwise
import Mathlib.Data.List.Perm.Basic
import ModJanus.Lib.Transition

namespace Mailbox

open Transition (Reach)

variable {α : Type*}

/-- A mailbox for messages of type `α`. -/
structure Box (α : Type*) where
  arrived : List α := []
  slot : Option (α × Nat) := none
  taken : List (α × Nat) := []
  queue : List (α × Nat) := []
  walking : List (α × Nat) := []
  delivered : List (α × Nat) := []

inductive Move (α : Type*) where
  /-- A message arrives and answers the request in flight. -/
  | reply (a : α)
  /-- The requester takes what is in the slot, if anything. -/
  | take
  /-- A message arrives and is put off. -/
  | defer (a : α)
  /-- A message arrives and is delivered. -/
  | deliver (a : α)
  /-- A walk takes the queue away. -/
  | detach
  /-- The walk delivers its next message. -/
  | walk

/-- The next message with its position. -/
def Box.next (b : Box α) (a : α) : α × Nat := (a, b.arrived.length)

def step (b : Box α) : Move α → Option (Box α)
  | .reply a => some { b with arrived := b.arrived ++ [a], slot := some (b.next a) }
  | .take => some { b with slot := none, taken := b.taken ++ b.slot.toList }
  | .defer a => some { b with arrived := b.arrived ++ [a], queue := b.queue ++ [b.next a] }
  | .deliver a =>
      some { b with arrived := b.arrived ++ [a], delivered := b.delivered ++ [b.next a] }
  | .detach => some { b with walking := b.queue, queue := [] }
  | .walk =>
      match b.walking with
      | [] => none
      | m :: rest => some { b with walking := rest, delivered := b.delivered ++ [m] }

def Empty (b : Box α) : Prop := b = {}

/-- A reply finds the slot empty, and a walk starts when no other is going on. -/
def Careful (b : Box α) : Move α → Prop
  | .reply _ => b.slot = none
  | .detach => b.walking = []
  | _ => True

/-- A walk starts when no other is going on, and a message that is delivered at
    once overtakes none. -/
def InOrder (b : Box α) : Move α → Prop
  | .detach => b.walking = []
  | .deliver _ => b.queue = [] ∧ b.walking = []
  | _ => True

/-! ## Conservation -/

/-- The places a message can be in. -/
def Box.places (b : Box α) : List (α × Nat) :=
  b.slot.toList ++ b.taken ++ b.queue ++ b.walking ++ b.delivered

/-- The messages that have arrived, each in one place. -/
def Conserved (b : Box α) : Prop := b.places.Perm b.arrived.zipIdx

/-- A new message enters one place. -/
theorem perm_arrived {b : Box α} {l : List (α × Nat)} {a : α} (h : Conserved b)
    (hl : l.Perm (b.places ++ [b.next a])) : l.Perm (b.arrived ++ [a]).zipIdx := by
  have hzip : (b.arrived ++ [a]).zipIdx = b.arrived.zipIdx ++ [b.next a] := by
    rw [List.zipIdx_append]
    simp [Box.next]
  rw [hzip]
  exact hl.trans (h.append_right _)

/-- A message in the middle of a list can as well stand at its end. -/
theorem perm_to_end {β : Type*} (l r : List β) (m : β) :
    (l ++ ([m] ++ r)).Perm (l ++ r ++ [m]) := by
  rw [List.append_assoc]
  exact List.perm_append_comm.append_left l

theorem step_conserved {b b' : Box α} {m : Move α} (h : Conserved b) (hg : Careful b m)
    (hs : step b m = some b') : Conserved b' := by
  cases m with
  | reply a =>
      cases hs
      have hslot : b.slot = none := hg
      refine perm_arrived h ?_
      -- the slot was empty, so the message takes nobody's place
      have hmove := perm_to_end [] (b.taken ++ b.queue ++ b.walking ++ b.delivered) (b.next a)
      simpa only [Box.places, hslot, Option.toList_some, Option.toList_none, List.nil_append,
        List.append_assoc] using hmove
  | take =>
      cases hs
      refine List.Perm.trans ?_ h
      simp only [Box.places, Option.toList_none, List.nil_append, List.append_assoc]
      -- the slot and what was taken before change places
      rw [← List.append_assoc, ← List.append_assoc b.slot.toList]
      exact List.perm_append_comm.append_right _
  | defer a =>
      cases hs
      refine perm_arrived h ?_
      have hmove := perm_to_end (b.slot.toList ++ b.taken ++ b.queue)
        (b.walking ++ b.delivered) (b.next a)
      simpa only [Box.places, List.append_assoc] using hmove
  | deliver a =>
      cases hs
      refine perm_arrived h ?_
      simp only [Box.places, List.append_assoc]
      exact List.Perm.refl _
  | detach =>
      cases hs
      have hwalking : b.walking = [] := hg
      refine List.Perm.trans ?_ h
      simp only [Box.places, hwalking, List.append_nil]
      exact List.Perm.refl _
  | walk =>
      cases hw : b.walking with
      | nil => simp [step, hw] at hs
      | cons m rest =>
          simp only [step, hw, Option.some.injEq] at hs
          subst hs
          refine List.Perm.trans ?_ h
          have hmove := perm_to_end (b.slot.toList ++ b.taken ++ b.queue) (rest ++ b.delivered) m
          simpa only [Box.places, hw, List.append_assoc, List.cons_append, List.nil_append]
            using hmove.symm

/-- Every message that has arrived is in one place, and in that place once. -/
theorem Reach.conserved {b : Box α} (h : Reach step Careful Empty b) : Conserved b := by
  refine h.invariant ?_ ?_
  · intro b hb
    rw [hb]
    exact List.Perm.refl _
  · intro b m b' hb hg hs
    exact step_conserved hb hg hs

/-- Each position that has been reached is taken up once, by the message that
    arrived there, and no other position is. -/
theorem Conserved.count_position {b : Box α} (h : Conserved b) (i : Nat) :
    (b.places.map Prod.snd).count i = if i < b.arrived.length then 1 else 0 := by
  -- the positions are those of `arrived`, which has each of them once
  have hpos : (b.places.map Prod.snd).Perm (List.range b.arrived.length) := by
    have hmap := h.map Prod.snd
    rwa [List.zipIdx_map_snd, ← List.range_eq_range'] at hmap
  rw [hpos.count_eq, List.Nodup.count List.nodup_range]
  simp only [List.mem_range]

theorem Conserved.getElem? {b : Box α} (h : Conserved b) {m : α × Nat} (hm : m ∈ b.places) :
    b.arrived[m.2]? = some m.1 := by
  have hzip := h.mem_iff.mp hm
  exact List.mem_zipIdx_iff_getElem?.mp hzip

/-! ## Order -/

/-- The messages for the consumer: delivered, to be delivered by a walk, put off. -/
def Box.line (b : Box α) : List (α × Nat) := b.delivered ++ b.walking ++ b.queue

/-- They follow each other in the order of arrival. -/
structure Ordered (b : Box α) : Prop where
  sorted : b.line.Pairwise fun m n => m.2 < n.2
  bound : ∀ m ∈ b.line, m.2 < b.arrived.length

/-- A move that leaves the line as it is. -/
theorem Ordered.of_line_eq {b b' : Box α} (h : Ordered b) (hline : b'.line = b.line)
    (harrived : b.arrived.length ≤ b'.arrived.length) : Ordered b' := by
  refine ⟨by rw [hline]; exact h.sorted, ?_⟩
  intro m hm
  rw [hline] at hm
  have hlt := h.bound m hm
  omega

/-- A move that lets a new message join the end of the line. -/
theorem Ordered.join {b b' : Box α} {a : α} (h : Ordered b)
    (hline : b'.line = b.line ++ [b.next a]) (harrived : b'.arrived = b.arrived ++ [a]) :
    Ordered b' := by
  refine ⟨?_, ?_⟩
  · rw [hline, List.pairwise_append]
    refine ⟨h.sorted, List.pairwise_singleton _ _, ?_⟩
    intro m hm n hn
    -- the new position is above all that were given out
    rw [List.mem_singleton.mp hn]
    exact h.bound m hm
  · intro m hm
    rw [hline] at hm
    rw [harrived, List.length_append, List.length_singleton]
    rcases List.mem_append.mp hm with hm | hm
    · have hlt := h.bound m hm
      omega
    · rw [List.mem_singleton.mp hm]
      exact Nat.lt_succ_self _

theorem step_ordered {b b' : Box α} {m : Move α} (h : Ordered b) (hg : InOrder b m)
    (hs : step b m = some b') : Ordered b' := by
  cases m with
  | reply a =>
      cases hs
      exact h.of_line_eq rfl (by simp)
  | take =>
      cases hs
      exact h.of_line_eq rfl (by simp)
  | defer a =>
      cases hs
      exact h.join (by simp [Box.line, Box.next]) rfl
  | deliver a =>
      cases hs
      obtain ⟨hqueue, hwalking⟩ := hg
      -- the line ends with what was delivered, so the message joins its end
      exact h.join (by simp [Box.line, Box.next, hqueue, hwalking]) rfl
  | detach =>
      cases hs
      have hwalking : b.walking = [] := hg
      exact h.of_line_eq (by simp [Box.line, hwalking]) (by simp)
  | walk =>
      cases hw : b.walking with
      | nil => simp [step, hw] at hs
      | cons m rest =>
          simp only [step, hw, Option.some.injEq] at hs
          subst hs
          exact h.of_line_eq (by simp [Box.line, hw]) (by simp)

/-- Messages are delivered in the order in which they arrived. -/
theorem Reach.ordered {b : Box α} (h : Reach step InOrder Empty b) :
    b.delivered.Pairwise fun m n => m.2 < n.2 := by
  have hb : Ordered b := by
    refine h.invariant ?_ ?_
    · intro b hb
      rw [hb]
      exact ⟨List.Pairwise.nil, by simp [Box.line]⟩
    · intro b m b' hb hg hs
      exact step_ordered hb hg hs
  have hsorted := hb.sorted
  -- what has been delivered is the front of the line
  rw [Box.line, List.append_assoc, List.pairwise_append] at hsorted
  exact hsorted.1

/-! ## An empty box -/

variable {b : Box α}

/-- The messages for the consumer: those that were not taken. -/
def Box.events (b : Box α) : List (α × Nat) :=
  b.arrived.zipIdx.filter fun m => decide (m.2 ∉ b.taken.map Prod.snd)

theorem zipIdx_pairwise (l : List α) : l.zipIdx.Pairwise fun m n => m.2 < n.2 := by
  rw [← List.pairwise_map (f := Prod.snd) (R := (· < ·)), List.zipIdx_map_snd,
    ← List.range_eq_range']
  exact List.pairwise_lt_range

/-- What has left the box is in one of two places, and not in the other one. -/
theorem Conserved.not_taken (h : Conserved b) {m n : α × Nat} (hm : m ∈ b.delivered)
    (hn : n ∈ b.taken) : m.2 ≠ n.2 := by
  intro hsame
  have honce := h.count_position m.2
  have hdelivered : 0 < (b.delivered.map Prod.snd).count m.2 :=
    List.count_pos_iff.mpr (List.mem_map_of_mem hm)
  have htaken : 0 < (b.taken.map Prod.snd).count m.2 :=
    List.count_pos_iff.mpr (hsame ▸ List.mem_map_of_mem hn)
  -- the position would be counted twice
  simp only [Box.places, List.map_append, List.count_append] at honce
  split at honce <;> omega

/-- When nothing is left in the box, what was delivered are the messages that were not
    taken, in the order in which they arrived. -/
theorem Conserved.delivered_eq (h : Conserved b)
    (hordered : b.delivered.Pairwise fun m n => m.2 < n.2) (hslot : b.slot = none)
    (hqueue : b.queue = []) (hwalking : b.walking = []) : b.delivered = b.events := by
  have hplaces : (b.taken ++ b.delivered).Perm b.arrived.zipIdx := by
    have hperm : b.places.Perm b.arrived.zipIdx := h
    simpa [Box.places, hslot, hqueue, hwalking] using hperm
  have hfilter := hplaces.filter fun m => decide (m.2 ∉ b.taken.map Prod.snd)
  have htaken : b.taken.filter (fun m => decide (m.2 ∉ b.taken.map Prod.snd)) = [] := by
    refine List.filter_eq_nil_iff.mpr fun m hm hout => ?_
    exact of_decide_eq_true hout (List.mem_map_of_mem hm)
  have hdelivered : b.delivered.filter (fun m => decide (m.2 ∉ b.taken.map Prod.snd))
      = b.delivered := by
    refine List.filter_eq_self.mpr fun m hm => decide_eq_true fun hmem => ?_
    obtain ⟨n, hn, hsame⟩ := List.mem_map.mp hmem
    exact h.not_taken hm hn hsame.symm
  rw [List.filter_append, htaken, hdelivered, List.nil_append] at hfilter
  refine hfilter.eq_of_pairwise ?_ hordered ((zipIdx_pairwise b.arrived).filter _)
  intro m n _ _ hlt hgt
  exact absurd hlt (Nat.lt_asymm hgt)

end Mailbox

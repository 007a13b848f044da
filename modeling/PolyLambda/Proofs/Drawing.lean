import Mathlib.Data.List.Nodup
import PolyLambda.Supply

/-! # What a draw takes from a supply

A draw cannot look at the identities it gets before it has taken them, and the draws of
this library take the same number of them whatever they are.  `Draw.Builds` says all that
such a draw does: with enough identities left it takes the next ones in order and makes
its result of them, and otherwise it takes all that are left and fails.  It holds of a
single identity and is kept by sequencing, so it holds of whatever is built from those.

The counter is a 64-bit word.  All statements about how far it has come are about natural
numbers, which a word that wraps would not satisfy. -/

set_option autoImplicit false

namespace PolyLambda

namespace Supply

def room (supply : Supply) : Nat := lastCounter.toNat - supply.counter.toNat

/-- The supply after `count` identities have been taken. -/
def advance (supply : Supply) (count : Nat) : Supply := ⟨supply.counter + UInt64.ofNat count⟩

/-- The identity that is handed out after `i` others. -/
def ahead (supply : Supply) (i : Nat) : TyVar := ⟨supply.counter + UInt64.ofNat i⟩

def next (supply : Supply) (count : Nat) : List TyVar := (List.range count).map supply.ahead

theorem toNat_lastCounter : lastCounter.toNat = 18446744073709551615 := rfl

theorem toNat_counter_add {supply : Supply} {count : Nat} (within : count ≤ supply.room) :
    (supply.counter + UInt64.ofNat count).toNat = supply.counter.toNat + count := by
  have bounded := supply.counter.toNat_lt
  rw [room, toNat_lastCounter] at within
  rw [UInt64.toNat_add, UInt64.toNat_ofNat']
  omega

/-- The counter never reaches beyond the last word. -/
theorem toNat_counter_add_room (supply : Supply) :
    supply.counter.toNat + supply.room = UInt64.size - 1 := by
  have bounded := supply.counter.toNat_lt
  have words : UInt64.size = 18446744073709551616 := rfl
  rw [room, toNat_lastCounter]
  omega

theorem toNat_counter_advance {supply : Supply} {count : Nat} (within : count ≤ supply.room) :
    (supply.advance count).counter.toNat = supply.counter.toNat + count :=
  toNat_counter_add within

theorem room_advance {supply : Supply} {count : Nat} (within : count ≤ supply.room) :
    (supply.advance count).room = supply.room - count := by
  rw [room, toNat_counter_advance within, room]
  omega

theorem advance_zero (supply : Supply) : supply.advance 0 = supply := by
  simp [advance]

theorem advance_advance (supply : Supply) (i j : Nat) :
    (supply.advance i).advance j = supply.advance (i + j) := by
  simp [advance, UInt64.ofNat_add, UInt64.add_assoc]

theorem ahead_advance (supply : Supply) (i j : Nat) :
    (supply.advance i).ahead j = supply.ahead (i + j) := by
  simp [advance, ahead, UInt64.ofNat_add, UInt64.add_assoc]

theorem length_next (supply : Supply) (count : Nat) : (supply.next count).length = count := by
  rw [next, List.length_map, List.length_range]

theorem next_add (supply : Supply) (i j : Nat) :
    supply.next (i + j) = supply.next i ++ (supply.advance i).next j := by
  simp only [next, List.range_add, List.map_append, List.map_map, List.append_cancel_left_eq]
  refine List.map_congr_left fun k _ => ?_
  exact (ahead_advance supply i k).symm

theorem indices_next {supply : Supply} {count : Nat} (within : count ≤ supply.room) :
    (supply.next count).map (·.index.toNat) = List.range' supply.counter.toNat count := by
  rw [next, List.map_map, List.range'_eq_map_range]
  refine List.map_congr_left fun i member => ?_
  have earlier := List.mem_range.mp member
  exact toNat_counter_add (by omega)

theorem index_of_mem_next {supply : Supply} {count : Nat} {v : TyVar}
    (within : count ≤ supply.room) (member : v ∈ supply.next count) :
    supply.counter.toNat ≤ v.index.toNat ∧ v.index.toNat < supply.counter.toNat + count := by
  have listed := List.mem_map_of_mem (f := fun v : TyVar => v.index.toNat) member
  rw [indices_next within] at listed
  exact List.mem_range'_1.mp listed

theorem nodup_next {supply : Supply} {count : Nat} (within : count ≤ supply.room) :
    (supply.next count).Nodup := by
  have indices : ((supply.next count).map (·.index.toNat)).Nodup := by
    rw [indices_next within]
    exact List.nodup_range'
  exact indices.of_map _

end Supply

namespace Draw

variable {α β : Type}

theorem run_bind_of_ok {draw : Draw α} {supply left : Supply} {handed : List TyVar} {a : α}
    (ran : draw.run supply = ⟨left, handed, .ok a⟩) (next : α → Draw β) :
    (draw >>= next).run supply =
      ⟨((next a).run left).supply, handed ++ ((next a).run left).handed,
        ((next a).run left).outcome⟩ := by
  rw [run] at ran
  simp only [run, bind, ran]

theorem run_bind_of_error {draw : Draw α} {supply left : Supply} {handed : List TyVar}
    {cause : Exhausted} (ran : draw.run supply = ⟨left, handed, .error cause⟩)
    (next : α → Draw β) : (draw >>= next).run supply = ⟨left, handed, .error cause⟩ := by
  rw [run] at ran
  simp only [run, bind, ran]

/-- The draw takes `size` identities and makes `build` of them, or takes all that are left when
these are fewer. -/
structure Builds (draw : Draw α) (size : Nat) (build : (Nat → TyVar) → α) : Prop where
  enough : ∀ supply : Supply, size ≤ supply.room →
    draw.run supply = ⟨supply.advance size, supply.next size, .ok (build supply.ahead)⟩
  short : ∀ supply : Supply, supply.room < size →
    draw.run supply = ⟨supply.advance supply.room, supply.next supply.room, .error ⟨⟩⟩

namespace Builds

theorem pure (a : α) : Builds (Pure.pure a) 0 (fun _ => a) where
  enough supply _ := by
    rw [supply.advance_zero]
    rfl
  short supply none := absurd none (Nat.not_lt_zero _)

theorem fresh : Builds Draw.fresh 1 (fun vars => vars 0) where
  enough supply within := by
    have further : supply.counter ≠ Supply.lastCounter := by
      intro exhausted
      rw [Supply.room, exhausted, Nat.sub_self] at within
      omega
    rw [run, Draw.fresh, if_neg further]
    simp [Supply.advance, Supply.next, Supply.ahead]
  short supply empty := by
    have noRoom : supply.room = 0 := Nat.lt_one_iff.mp empty
    have exhausted : supply.counter = Supply.lastCounter := by
      have lastWord := supply.toNat_counter_add_room
      rw [noRoom] at lastWord
      exact UInt64.toNat_inj.mp lastWord
    rw [run, Draw.fresh, if_pos exhausted, noRoom, supply.advance_zero]
    rfl

theorem bind {first last : Nat} {build : (Nat → TyVar) → α} {rest : α → (Nat → TyVar) → β}
    {draw : Draw α} {next : α → Draw β} (builds : draw.Builds first build)
    (buildsNext : ∀ a, (next a).Builds last (rest a)) :
    (draw >>= next).Builds (first + last)
      (fun vars => rest (build vars) fun i => vars (first + i)) where
  enough supply within := by
    have start := builds.enough supply (by omega)
    have left : last ≤ (supply.advance first).room := by
      rw [Supply.room_advance (by omega)]
      omega
    have following : (supply.advance first).ahead = fun i => supply.ahead (first + i) :=
      funext fun i => supply.ahead_advance first i
    rw [run_bind_of_ok start, (buildsNext _).enough _ left, supply.advance_advance,
      supply.next_add, following]
  short supply tight := by
    by_cases within : first ≤ supply.room
    · have start := builds.enough supply within
      have roomLeft := Supply.room_advance within
      have left : (supply.advance first).room < last := by omega
      have all : first + (supply.advance first).room = supply.room := by omega
      rw [run_bind_of_ok start, (buildsNext _).short _ left, supply.advance_advance,
        ← supply.next_add, all]
    · exact run_bind_of_error (builds.short supply (by omega)) next

theorem fresh_bind {last : Nat} {rest : TyVar → (Nat → TyVar) → β} {next : TyVar → Draw β}
    (buildsNext : ∀ v, (next v).Builds last (rest v)) :
    (Draw.fresh >>= next).Builds (1 + last) (fun vars => rest (vars 0) fun i => vars (1 + i)) :=
  fresh.bind buildsNext

/-- Whether it succeeds or not, the draw has taken the next identities in order. -/
theorem exists_count {draw : Draw α} {size : Nat} {build : (Nat → TyVar) → α}
    (builds : draw.Builds size build) (supply : Supply) :
    ∃ count ≤ supply.room, (draw.run supply).supply = supply.advance count ∧
      (draw.run supply).handed = supply.next count := by
  by_cases within : size ≤ supply.room
  · rw [builds.enough supply within]
    exact ⟨size, within, rfl, rfl⟩
  · rw [builds.short supply (Nat.lt_of_not_le within)]
    exact ⟨supply.room, Nat.le_refl _, rfl, rfl⟩

theorem outcome_eq_error_iff {draw : Draw α} {size : Nat} {build : (Nat → TyVar) → α}
    (builds : draw.Builds size build) (supply : Supply) :
    (∃ cause, (draw.run supply).outcome = .error cause) ↔ supply.room < size := by
  by_cases within : size ≤ supply.room
  · rw [builds.enough supply within]
    exact iff_of_false (fun ⟨_, failed⟩ => nomatch failed) (Nat.not_lt.mpr within)
  · have short := Nat.lt_of_not_le within
    rw [builds.short supply short]
    exact iff_of_true ⟨_, rfl⟩ short

end Builds

end Draw

end PolyLambda

import CloudflareBlog.Mmuniq.Run

/-!
# No line of `mmuniq.c` is printed twice

A hash that was inserted stays in the table: an insertion fills a free slot only, and the copying
loop of a resize inserts the hash again.  That loop stops before the last slot of the old table, so
what is in this slot is forgotten.  When the last slot is free at every resize, and no insertion
overflowed, every printed hash is remembered (`Remembered`) and no line is printed twice
(`printed_once`).  A table of one slot has only the last slot, and forgets what it holds at its
first resize (`printed_twice`).
-/

namespace CloudflareBlog.Mmuniq

open CloudflareBlog.Lib.Buffer CloudflareBlog.Lib.Records CloudflareBlog.Lib.LinearProbing

/-- The last slot of the table was free whenever it was copied. -/
def LastSlotFree (g : Globals) : Prop :=
  ∀ resize ∈ g.resizes, resize.1 resize.2.mask.toNat = 0

/-- What the run has to keep clear of for its table to work. -/
structure Sound (g : Globals) : Prop where
  quiet : g.overflowCount = 0
  nonzero : ∀ call ∈ g.calls, call.h ≠ 0
  lastFree : LastSlotFree g

/-- The hashes of printed lines are in the table, and were found whenever they came again. -/
structure Remembered (env : Env) (g : Globals) : Prop where
  holds : ∀ call ∈ g.calls, prints env.globalRepeated call.miss →
    (scheme g.globalSizeMask).Holds g.globalBm call.h
  again : g.calls.Pairwise fun earlier later =>
    prints env.globalRepeated earlier.miss → earlier.h = later.h → later.miss = 0

section

variable {env : Env} {g : Globals}

theorem Sound.of_flush {line : List Byte} {h : BitVec 64} (sound : Sound (flush env line h g)) :
    Sound g ∧ h ≠ 0 ∧ (scheme g.globalSizeMask).find g.globalBm h ≠ .exhausted := by
  obtain ⟨quiet, nonzero, lastFree⟩ := sound
  simp only [flush] at quiet nonzero lastFree
  have found : ¬(hashInsert h g.globalBm g.globalSizeMask.mask).1 = -1 := by
    intro failed
    rw [if_pos failed] at quiet
    omega
  rw [if_neg found] at quiet
  refine ⟨⟨quiet, fun call among => nonzero call (List.mem_append_left _ among), lastFree⟩, ?_, ?_⟩
  · exact nonzero _ (List.mem_append_right _ List.mem_cons_self)
  · exact fun exhausted => found (hashInsert_eq_neg_one.mpr exhausted)

/-- A flush remembers the hash it prints, and keeps those it knows. -/
theorem remembered_flush {line : List Byte} {h : BitVec 64} (remembered : Remembered env g)
    (nonzero : h ≠ 0) (room : (scheme g.globalSizeMask).find g.globalBm h ≠ .exhausted) :
    Remembered env (flush env line h g) := by
  obtain ⟨holds, again⟩ := remembered
  constructor
  · intro call among printed
    simp only [flush] at among ⊢
    rw [snd_hashInsert]
    obtain earlier | latest := List.mem_append.mp among
    · exact (holds call earlier printed).insert h
    · rw [List.mem_singleton.mp latest]
      exact Scheme.holds_insert nonzero room
  · simp only [flush]
    rw [List.pairwise_append]
    refine ⟨again, List.pairwise_singleton .., fun earlier among later isNew printed same => ?_⟩
    rw [List.mem_singleton] at isNew
    subst isNew
    simp only at same ⊢
    rw [hashInsert_eq_zero, ← same]
    exact holds earlier among printed

theorem Sound.of_growTable (sound : Sound (growTable env g)) : Sound g := by
  obtain ⟨quiet, nonzero, lastFree⟩ := sound
  rw [growTable] at quiet nonzero lastFree
  split at quiet
  next full =>
    rw [if_pos full] at nonzero lastFree
    exact ⟨Nat.eq_zero_of_add_eq_zero_right quiet, nonzero,
      fun resize among => lastFree resize (List.mem_append_left _ among)⟩
  next room =>
    rw [if_neg room] at nonzero lastFree
    exact ⟨quiet, nonzero, lastFree⟩

/-- A resize keeps every hash of the old table when the last slot is free. -/
theorem remembered_growTable (remembered : Remembered env g) (sound : Sound (growTable env g)) :
    Remembered env (growTable env g) := by
  obtain ⟨holds, again⟩ := remembered
  refine ⟨?_, by rw [calls_growTable]; exact again⟩
  intro call among printed
  rw [calls_growTable] at among
  have old := holds call among printed
  obtain ⟨quiet, nonzero, lastFree⟩ := sound
  rw [growTable] at quiet lastFree ⊢
  split
  next full =>
    rw [if_pos full] at quiet lastFree
    have free : g.globalBm g.globalSizeMask.mask.toNat = 0 :=
      lastFree (g.globalBm, g.globalSizeMask) (List.mem_append_right _ List.mem_cons_self)
    obtain ⟨slot, below, same⟩ := old.exists_slot (Nat.succ_pos _)
    have occupied : g.globalBm slot ≠ 0 := by
      rw [same]
      exact old.ne_empty
    -- the last slot is not copied, but it was free
    have before : slot < g.globalSizeMask.mask.toNat := by
      refine Nat.lt_of_le_of_ne (Nat.le_of_lt_succ below) ?_
      rintro rfl
      exact occupied free
    rw [← same]
    exact rehash_holds g.globalBm g.globalSizeMask.double _ (Nat.eq_zero_of_add_eq_zero_left quiet)
      slot before occupied
  next => exact old

theorem remembered_commit (remembered : Remembered env g) : Remembered env (commit env g).2 := by
  obtain ⟨holds, again⟩ := remembered
  obtain success | failure := commit_cases env g
  · rw [success]
    exact ⟨holds, again⟩
  · rw [failure]
    exact ⟨holds, again⟩

theorem Sound.of_commit (sound : Sound (commit env g).2) : Sound g := by
  obtain success | failure := commit_cases env g
  · rw [success] at sound
    exact ⟨sound.quiet, sound.nonzero, sound.lastFree⟩
  · rw [failure] at sound
    exact ⟨sound.quiet, sound.nonzero, sound.lastFree⟩

end

variable {env : Env} {state : State} {unfinished : List Byte} {reads : List (Option (List Byte))}
  {g : Globals}

/-- In a sound run every printed hash is remembered. -/
theorem mainLoop_remembered (ready : state.res = 0 → Ready state unfinished)
    (delivers : Delivers env state reads)
    (ended : (mainLoop env state reads).globals? = some g)
    (remembered : Remembered env state.globals) (sound : Sound g) :
    Remembered env g := by
  refine mainLoop_invariant (P := fun g => Sound g → Remembered env g) ?_ ?_ ready delivers ended
    (fun _ => remembered) sound
  · intro lines g admissible _ before
    refine emit_invariant (P := fun g => Sound g → Remembered env g) ?_ ?_ admissible before
    · intro line g _ before sound
      obtain ⟨sound, nonzero, room⟩ := sound.of_flush
      exact remembered_flush (before sound) nonzero room
    · intro g before sound
      exact remembered_commit (before sound.of_commit)
  · intro g before sound
    exact remembered_growTable (before sound.of_growTable) sound

/-- Every call is made with the hash of its line, or with the whole buffer. -/
theorem mainLoop_admissible (ready : state.res = 0 → Ready state unfinished)
    (delivers : Delivers env state reads)
    (ended : (mainLoop env state reads).globals? = some g)
    (before : ∀ call ∈ state.globals.calls, Admissible env (call.line, call.h)) :
    ∀ call ∈ g.calls, Admissible env (call.line, call.h) := by
  refine mainLoop_invariant (P := fun g => ∀ call ∈ g.calls, Admissible env (call.line, call.h))
    ?_ ?_ ready delivers ended before
  · intro lines g admissible _ before
    refine emit_invariant (P := fun g => ∀ call ∈ g.calls, Admissible env (call.line, call.h))
      ?_ ?_ admissible before
    · intro line g fits before call among
      obtain earlier | latest := List.mem_append.mp among
      · exact before call earlier
      · rw [List.mem_singleton.mp latest]
        exact fits
    · intro g before
      rw [calls_commit]
      exact before
  · intro g before
    rw [calls_growTable]
    exact before

/-! ## The output -/

/-- No newline-terminated line was written twice.  Such lines are shorter than `BUF_SZ`, and the
pieces of longer ones are not. -/
def WrittenOnce (env : Env) (g : Globals) : Prop :=
  ((printed env g).filter (·.length < bufSz)).Nodup

/-- `hash_insert` returns 0 for the hash of every printed line, now and at every call since. -/
def StillFound (env : Env) (g : Globals) : Prop :=
  (∀ call ∈ g.calls, prints env.globalRepeated call.miss →
    (hashInsert call.h g.globalBm g.globalSizeMask.mask).1 = 0) ∧
  g.calls.Pairwise fun earlier later =>
    prints env.globalRepeated earlier.miss → earlier.h = later.h → later.miss = 0

theorem Remembered.stillFound (remembered : Remembered env g) : StillFound env g :=
  ⟨fun call among printed => hashInsert_eq_zero.mpr (remembered.holds call among printed),
    remembered.again⟩

theorem Remembered.writtenOnce (default : env.globalRepeated = false)
    (remembered : Remembered env g)
    (admissible : ∀ call ∈ g.calls, Admissible env (call.line, call.h)) : WrittenOnce env g := by
  -- two short lines that are printed have different hashes
  have hash (call : Call) (among : call ∈ g.calls) (short : call.line.length < bufSz) :
      call.h = env.finder.lineHash call.line :=
    (admissible call among).resolve_right (Nat.ne_of_lt short)
  rw [WrittenOnce, printed, List.filter_map, List.filter_filter, List.Nodup, List.pairwise_map,
    List.pairwise_filter]
  refine remembered.again.imp_of_mem fun {earlier later} amongEarlier amongLater repeats => ?_
  intro keptEarlier keptLater same
  simp only [Function.comp_apply, Bool.and_eq_true, decide_eq_true_eq] at keptEarlier keptLater
  have sameHash : earlier.h = later.h := by
    rw [hash earlier amongEarlier keptEarlier.1, hash later amongLater keptLater.1, same]
  have found := repeats keptEarlier.2 sameHash
  have printed := keptLater.2
  rw [default, prints_default, found] at printed
  exact absurd printed (by decide)

end CloudflareBlog.Mmuniq

import PagedTables.Proofs.Registry

namespace PagedTables

/-- A transport that keeps its channels in a list, applies what may fail to one of them, and leaves
it to a channel how it closes. A channel that has closed does not close again; `shut` is what is
left of a channel that was told to close, whether or not it did. -/
structure ChannelList (W C : Type) [Transport W] where
  channels : W → List C
  put : W → List C → W
  apply : W → Nat → (C → Except ChannelError C) → Except ChannelError W
  close : C → Except ChannelError C
  shut : C → C
  channels_put : ∀ w l, channels (put w l) = l
  put_channels : ∀ w, put w (channels w) = w
  put_put : ∀ w l l', put (put w l) l' = put w l'
  apply_none : ∀ {w n} f, (channels w)[n]? = none → apply w n f = .error (.closed "")
  apply_some : ∀ {w n c} f, (channels w)[n]? = some c →
    apply w n f = (f c).map (fun c => put w ((channels w).set n c))
  close_eq : ∀ w n, Transport.close w n = apply w n close
  close_once : ∀ {c c'}, close c = .ok c' → ∃ cause, close c' = .error cause
  shut_of_ok : ∀ {c c'}, close c = .ok c' → shut c = c'
  shut_of_error : ∀ {c cause}, close c = .error cause → shut c = c

namespace ChannelList

variable {W C : Type} [Transport W] (k : ChannelList W C) {w w' : W} {n : Nat} {c : C}

def update (w : W) (n : Nat) (f : C → C) : W := k.put w ((k.channels w).modify n f)

/-- `w'` is `w` with some of its channels told to close. -/
structure Closes (which : Nat → Bool) (w w' : W) : Prop where
  rest : w' = k.put w (k.channels w')
  channels : ∀ n : Nat, (k.channels w')[n]? =
    if which n then ((k.channels w)[n]?).map k.shut else (k.channels w)[n]?

theorem apply_ok_iff {f : C → Except ChannelError C} : k.apply w n f = .ok w' ↔
    ∃ c c', (k.channels w)[n]? = some c ∧ f c = .ok c' ∧
      w' = k.put w ((k.channels w).set n c') := by
  cases hc : (k.channels w)[n]? with
  | none => simp [k.apply_none f hc]
  | some c => simp [k.apply_some f hc, map_ok_iff]

theorem close_ok_iff : Transport.close w n = .ok w' ↔ ∃ c c', (k.channels w)[n]? = some c ∧
    k.close c = .ok c' ∧ w' = k.put w ((k.channels w).set n c') := by
  rw [k.close_eq]
  exact k.apply_ok_iff

theorem close_of_error {cause : ChannelError} (hc : (k.channels w)[n]? = some c)
    (hclose : Transport.close w n = .error cause) : k.close c = .error cause := by
  rw [k.close_eq, k.apply_some k.close hc] at hclose
  exact map_error_iff.mp hclose

/-- Closing twice is closing once. -/
theorem shut_shut (c : C) : k.shut (k.shut c) = k.shut c := by
  cases hc : k.close c with
  | error cause => rw [k.shut_of_error hc, k.shut_of_error hc]
  | ok c' =>
    obtain ⟨cause, hc'⟩ := k.close_once hc
    rw [k.shut_of_ok hc, k.shut_of_error hc']

theorem update_getElem? (w : W) (n m : Nat) (f : C → C) : (k.channels (k.update w n f))[m]? =
    if n = m then ((k.channels w)[m]?).map f else (k.channels w)[m]? := by
  rw [update, k.channels_put, getElem?_modify_ite]

theorem update_self {f : C → C} (hf : ∀ c, (k.channels w)[n]? = some c → f c = c) :
    k.update w n f = w := by
  rw [update, modify_congr (g := id) hf, List.modify_id, k.put_channels]

theorem closeQuietly_eq (w : W) (n : Nat) : Service.closeQuietly w n = k.update w n k.shut := by
  unfold Service.closeQuietly
  split
  next w' hw =>
    obtain ⟨c, c', hc, hclose, rfl⟩ := k.close_ok_iff.mp hw
    rw [update, ← set_eq_modify k.shut hc, k.shut_of_ok hclose]
  next cause hw => exact (k.update_self (fun c hc => k.shut_of_error (k.close_of_error hc hw))).symm

theorem closes_update (w : W) (n : Nat) : k.Closes (n == ·) w (k.update w n k.shut) := by
  refine ⟨by rw [update, k.channels_put], fun m => ?_⟩
  simp only [k.update_getElem?, beq_iff_eq]

/-- What becomes of the channel that a registration replaces. -/
theorem closes_old (w : W) (old : Option Entry) :
    k.Closes (fun n => old.any (fun e => e.channel == n)) w
      (old.elim w (fun e => Service.closeQuietly w e.channel)) := by
  cases old with
  | none => exact ⟨(k.put_channels w).symm, fun n => by simp⟩
  | some e =>
    rw [Option.elim_some, k.closeQuietly_eq]
    exact k.closes_update w e.channel

theorem closes_each (w : W) (entries : KeyMap Entry) :
    k.Closes (fun n => entries.any (fun e => e.2.channel == n)) w
      (Service.closeEach w entries).2 := by
  rw [closeEach_world]
  induction entries generalizing w with
  | nil => exact ⟨(k.put_channels w).symm, fun n => by simp⟩
  | cons e entries ih =>
    obtain ⟨hrest, hc⟩ := ih (Service.closeQuietly w e.2.channel)
    rw [List.foldl_cons]
    refine ⟨?_, fun n => ?_⟩
    · rw [k.closeQuietly_eq, update, k.put_put] at hrest
      rw [k.closeQuietly_eq]
      exact hrest
    · rw [hc n, k.closeQuietly_eq, k.update_getElem?, List.any_cons]
      by_cases he : e.2.channel = n
      · simp only [he, beq_self_eq_true, Bool.true_or, ↓reduceIte, Option.map_map]
        -- a later entry on the same channel finds it shut
        split
        · exact congrArg (fun f => ((k.channels w)[n]?).map f) (funext k.shut_shut)
        · rfl
      · rw [if_neg he, beq_false_of_ne he, Bool.false_or]

end ChannelList

end PagedTables

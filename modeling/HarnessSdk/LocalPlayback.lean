import HarnessSdk.LocalFlow
import Mathlib.Tactic.Linarith
import Mathlib.Tactic.Positivity

/-!
# The playback statistics

The time that has been played is counted when the product acknowledges it, and the time that has been sent when a send returns.
A product that has a frame before its send has returned can be ahead of what has been sent.
-/

namespace HarnessSdk
namespace Local

namespace Controller

open Run Relation Mover

variable {c : LocalConfig} {s s' u v : Controller} {a : ChannelAction} {mover : Mover} {heard : Heard} {said : Said}

/-- An acknowledgement that is not refused reports a position within the audio whose sends have returned, and the session
does not become ready with fewer bytes for a second than those that have been sent were counted with. -/
structure Timely (s : Controller) (a : ChannelAction) : Prop where
  position : ∀ highest position, s.heardBy a highest position → position * s.output.byteRate ≤ s.output.sentAudioBytes * 1000
  format : ∀ signal audio, a = .events signal → signal.carries audio → s.ready = false → s.output.sentAudioBytes = 0 ∨
    s.output.byteRate ≤ OutputFlow.byteRate { s.output with audio }

/-- What has been played is within what has been sent. -/
structure Plays (s : Controller) : Prop where
  unready : s.ready = false → s.output.playedAudioMs = 0
  nonneg : 0 ≤ s.output.sentAudioMs
  counted : (s.output.sentAudioBytes * 1000 : ℚ) ≤ s.output.sentAudioMs * s.output.byteRate
  played : s.output.playedAudioMs * s.output.byteRate ≤ s.output.sentAudioBytes * 1000

theorem Plays.same (h : Plays s) (hready : u.ready = s.ready) (houtput : u.output = s.output) : Plays u := by
  refine ⟨?_,?_,?_,?_⟩ <;> rw [houtput]
  · rw [hready]
    exact h.unready
  · exact h.nonneg
  · exact h.counted
  · exact h.played

theorem Plays.sent (h : Plays s) (size : ℕ) : Plays { s with output := s.output.sent size } := by
  have hrate : (0 : ℚ) < s.output.byteRate := by exact_mod_cast s.output.byteRate_pos
  have hsize : (size * 1000 / s.output.byteRate : ℚ) * s.output.byteRate = size * 1000 := div_mul_cancel₀ _ hrate.ne'
  have hcounted := h.counted
  refine ⟨h.unready,?_,?_,?_⟩
  · have hmore : (0 : ℚ) ≤ size * 1000 / s.output.byteRate := by positivity
    show 0 ≤ s.output.sentAudioMs + size * 1000 / s.output.byteRate
    exact add_nonneg h.nonneg hmore
  · show (((s.output.sentAudioBytes + size : ℕ) : ℚ) * 1000) ≤ (s.output.sentAudioMs + size * 1000 / s.output.byteRate) * s.output.byteRate
    rw [add_mul,hsize]
    push_cast
    linarith
  · show s.output.playedAudioMs * s.output.byteRate ≤ ((s.output.sentAudioBytes + size : ℕ) : ℤ) * 1000
    have hplayed := h.played
    push_cast
    linarith

theorem Plays.acknowledge (h : Plays s) {highest : ℕ} {position : ℤ} (hready : s.ready)
    (hposition : position * s.output.byteRate ≤ s.output.sentAudioBytes * 1000) :
    Plays { s with output := s.output.acknowledge highest position } := by
  have hsame : (s.output.acknowledge highest position).playedAudioMs = position ∧
      (s.output.acknowledge highest position).sentAudioMs = s.output.sentAudioMs ∧
      (s.output.acknowledge highest position).sentAudioBytes = s.output.sentAudioBytes ∧
      (s.output.acknowledge highest position).byteRate = s.output.byteRate := by
    unfold OutputFlow.acknowledge
    split <;> exact ⟨rfl,rfl,rfl,rfl⟩
  obtain ⟨hplayed,hms,hbytes,hrate⟩ := hsame
  refine ⟨fun hunready => ?_,?_,?_,?_⟩
  · rw [show s.ready = true from hready] at hunready
    exact nomatch hunready
  · show 0 ≤ (s.output.acknowledge highest position).sentAudioMs
    rw [hms]
    exact h.nonneg
  · show ((s.output.acknowledge highest position).sentAudioBytes * 1000 : ℚ) ≤
      (s.output.acknowledge highest position).sentAudioMs * (s.output.acknowledge highest position).byteRate
    rw [hms,hbytes,hrate]
    exact h.counted
  · show (s.output.acknowledge highest position).playedAudioMs * (s.output.acknowledge highest position).byteRate ≤
      (s.output.acknowledge highest position).sentAudioBytes * 1000
    rw [hplayed,hbytes,hrate]
    exact hposition

theorem Plays.format (h : Plays s) (hfresh : s.ready = false) (audio : RealtimeAudioFormat)
    (hformat : s.output.sentAudioBytes = 0 ∨ s.output.byteRate ≤ OutputFlow.byteRate { s.output with audio })
    (hready : u.ready = true) (houtput : u.output = { s.output with audio }) : Plays u := by
  have hnone := h.unready hfresh
  have hnonneg := h.nonneg
  refine ⟨fun hunready => ?_,?_,?_,?_⟩
  · rw [hready] at hunready
    exact nomatch hunready
  · rw [houtput]
    exact hnonneg
  · rw [houtput]
    show (s.output.sentAudioBytes * 1000 : ℚ) ≤ s.output.sentAudioMs * OutputFlow.byteRate { s.output with audio }
    rcases hformat with hbytes | hrate
    · rw [hbytes]
      have hmore : (0 : ℚ) ≤ s.output.sentAudioMs * OutputFlow.byteRate { s.output with audio } :=
        mul_nonneg hnonneg (Nat.cast_nonneg _)
      simpa using hmore
    · have hrate' : (s.output.byteRate : ℚ) ≤ OutputFlow.byteRate { s.output with audio } := by exact_mod_cast hrate
      exact h.counted.trans (mul_le_mul_of_nonneg_left hrate' hnonneg)
  · rw [houtput]
    show s.output.playedAudioMs * _ ≤ s.output.sentAudioBytes * 1000
    rw [hnone]
    omega

/-! The moves. -/

/-- What the moves of `run` keep. -/
structure Keeps (s u : Controller) : Prop where
  plays : Plays u
  bytes : u.output.sentAudioBytes = s.output.sentAudioBytes
  rate : u.output.byteRate = s.output.byteRate

theorem Keeps.same (h : Keeps s u) (hready : v.ready = u.ready) (houtput : v.output = u.output) : Keeps s v := by
  refine ⟨h.plays.same hready houtput,?_,?_⟩ <;> rw [houtput]
  · exact h.bytes
  · exact h.rate

theorem keeps_moves {leave : Prop} (hplays : Plays s) (hheard : ∀ highest position, heard highest position →
    position * s.output.byteRate ≤ s.output.sentAudioBytes * 1000) (h : ReflTransGen (Move leave (.run heard)) s u) :
    Keeps s u := by
  induction h with
  | refl => exact ⟨hplays,rfl,rfl⟩
  | @tail u v _ hm ih =>
    cases hm with
    | aside hm =>
      cases hm with
      | output hm =>
        cases hm with
        | @acknowledged highest position h hdue =>
          have hposition := hheard highest position h
          rw [← ih.bytes,← ih.rate] at hposition
          have hsame : (u.output.acknowledge highest position).sentAudioBytes = u.output.sentAudioBytes ∧
              (u.output.acknowledge highest position).byteRate = u.output.byteRate := by
            unfold OutputFlow.acknowledge
            split <;> exact ⟨rfl,rfl⟩
          exact ⟨ih.plays.acknowledge hdue.ready hposition,hsame.1.trans ih.bytes,hsame.2.trans ih.rate⟩
        | pushed hfeeds | sent hfeeds => exact hfeeds.elim
      | ready hfeeds => exact hfeeds.elim
      | _ => exact ih.same rfl rfl
    | _ => exact ih.same rfl rfl

/-- What the moves of `_forward_events` keep: a session that becomes ready finds the bytes and their rate as they were. -/
structure KeepsFormat (said : Said) (s u : Controller) : Prop where
  plays : Plays u
  unready : u.ready = false → s.ready = false ∧ u.output.byteRate = s.output.byteRate
  bytes : ∀ audio, said audio → u.output.sentAudioBytes = s.output.sentAudioBytes

theorem KeepsFormat.same (h : KeepsFormat said s u) (hready : v.ready = u.ready) (houtput : v.output = u.output) :
    KeepsFormat said s v := by
  refine ⟨h.plays.same hready houtput,?_,?_⟩ <;> rw [houtput]
  · rw [hready]
    exact h.unready
  · exact h.bytes

theorem keepsFormat_moves {leave : Prop} (hplays : Plays s) (hsaid : ∀ audio, said audio → s.ready = false →
    s.output.sentAudioBytes = 0 ∨ s.output.byteRate ≤ OutputFlow.byteRate { s.output with audio })
    (h : ReflTransGen (Move leave (.events said)) s u) : KeepsFormat said s u := by
  induction h with
  | refl => exact ⟨hplays,fun hready => ⟨hready,rfl⟩,fun _ _ => rfl⟩
  | @tail u v _ hm ih =>
    cases hm with
    | aside hm =>
      cases hm with
      | output hm =>
        cases hm with
        | acknowledged h => exact h.elim
        | pushed =>
          have hplays := ih.plays
          exact ⟨⟨hplays.unready,hplays.nonneg,hplays.counted,hplays.played⟩,ih.unready,ih.bytes⟩
        | sent _ hquiet size =>
          exact ⟨ih.plays.sent size,ih.unready,fun audio h => absurd h (hquiet audio)⟩
      | ready _ _ hfresh _ _ outputAudio h =>
        obtain ⟨hready,hrate⟩ := ih.unready hfresh
        have hformat := hsaid outputAudio h hready
        rw [← ih.bytes outputAudio h,← hrate] at hformat
        exact ⟨ih.plays.format hfresh outputAudio hformat rfl rfl,nofun,ih.bytes⟩
      | _ => exact ih.same rfl rfl
    | _ => exact ih.same rfl rfl

theorem Plays.step (h : Plays s) (ho : Ordered s) (htimely : Timely s a) (ha : Controller.step c s a = some s') : Plays s' := by
  obtain ⟨mover,v,u,hbrings,hmoves,hturn,hsettled⟩ := step_turn ho ha
  obtain ⟨hready,houtput⟩ := hturn.output
  have hv : Plays v := by
    cases mover with
    | run heard => exact (keeps_moves h (fun n p hheard => htimely.position n p (hbrings.heard n p hheard)) hmoves).plays
    | events said =>
      refine (keepsFormat_moves h (fun audio hsaid hunready => ?_) hmoves).plays
      obtain ⟨signal,hsignal,hcarried⟩ := hbrings.said audio hsaid
      exact htimely.format signal audio hsignal hcarried hunready
  exact hv.same (hsettled.ready.trans hready) (hsettled.output.trans houtput)

/-! The claim. -/

end Controller
end Local
end HarnessSdk

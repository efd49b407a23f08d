import Discovery.RegistryRuns
import Mathlib.Data.Finset.Max

/-!
# Announcements out of order

The registry keeps the announcement of a node that was applied last.  It does
not compare timestamps, so a late announcement takes the place of a newer one.
-/

namespace Discovery

open Lib

namespace DiscoveryRegistry

variable {r r' : DiscoveryRegistry} {n : Bytes} {l announcements : List DiscoveryAnnouncement}

/-- The registry after `upsert_announcement` on each element of the list. -/
def upsertAnnouncements (clock : ℕ → Timestamp) (l : List DiscoveryAnnouncement)
    (r : DiscoveryRegistry) (ticks : ℕ) : DiscoveryRegistry :=
  (run clock (l.map .upsertAnnouncement) (r, ticks)).1

theorem get_upsertAnnouncements (clock : ℕ → Timestamp) (hne : l ≠ [])
    (hl : ∀ a ∈ l, a.isValid = true ∧ a.nodeId = n) (r : DiscoveryRegistry) (ticks : ℕ) :
    ∃ p, (r.upsertAnnouncements clock l ticks).get n = some p ∧
      p.announcement = l.getLast hne := by
  obtain ⟨hvalid, hid⟩ := hl _ (List.getLast_mem hne)
  have hsplit : l.map Op.upsertAnnouncement =
      l.dropLast.map Op.upsertAnnouncement ++ [.upsertAnnouncement (l.getLast hne)] := by
    conv_lhs => rw [← List.dropLast_concat_getLast hne]
    rw [List.map_append, List.map_singleton]
  obtain ⟨i, -, -, hget⟩ := get_upsertAnnouncement_self
    (r := (run clock (l.dropLast.map .upsertAnnouncement) (r, ticks)).1) clock hvalid
    (run clock (l.dropLast.map .upsertAnnouncement) (r, ticks)).2
  rw [hid] at hget
  rw [upsertAnnouncements, hsplit, run_append, run, run]
  exact ⟨_, hget, rfl⟩

/-! ## The newest announcement -/

/-- The announcements of `n` that a registry holds and is about to be given. -/
def candidates (r : DiscoveryRegistry) (n : Bytes) (announcements : List DiscoveryAnnouncement) :
    List DiscoveryAnnouncement :=
  (r.get n).toList.map DiscoveredPeer.announcement ++ announcements

def Newest (as : List DiscoveryAnnouncement) (a : DiscoveryAnnouncement) : Prop :=
  ∀ b ∈ as, b.timestamp.millis.toInt ≤ a.timestamp.millis.toInt

/-- For `n`, the registry `r'` has the address and the time of `a`. -/
def Holds (r' : DiscoveryRegistry) (n : Bytes) (a : DiscoveryAnnouncement) : Prop :=
  ∃ p, r'.get n = some p ∧ p.announcement.host = a.host ∧ p.announcement.port = a.port ∧
    p.announcement.timestamp = a.timestamp

theorem exists_newest {as : List DiscoveryAnnouncement} (hne : as ≠ []) :
    ∃ a ∈ as, Newest as a := by
  obtain ⟨a, ha, hmax⟩ := Finset.exists_max_image as.toFinset
    (fun a ↦ a.timestamp.millis.toInt) (List.toFinset_nonempty_iff as |>.mpr hne)
  exact ⟨a, List.mem_toFinset.mp ha, fun b hb ↦ hmax b (List.mem_toFinset.mpr hb)⟩

theorem eq_of_newest {as : List DiscoveryAnnouncement}
    (hdistinct : (as.map DiscoveryAnnouncement.timestamp).Nodup) {a b : DiscoveryAnnouncement}
    (ha : a ∈ as) (hb : b ∈ as) (hnewest : Newest as a) (hnewest' : Newest as b) : a = b := by
  apply List.inj_on_of_nodup_map hdistinct ha hb
  have hmillis : a.timestamp.millis = b.timestamp.millis :=
    Int64.toInt_inj.mp (Int.le_antisymm (hnewest' a ha) (hnewest b hb))
  cases hta : a.timestamp with
  | mk ma =>
      cases htb : b.timestamp with
      | mk mb =>
          rw [hta, htb] at hmillis
          exact congrArg Timestamp.mk hmillis

/-- Announcements of one node, applied in any order and with any repetitions,
leave the one applied last.  It is the newest of them and of the stored one
only if the newest was applied last. -/
theorem upsertAnnouncements_last_wins (clock : ℕ → Timestamp) (ticks : ℕ)
    (hvalid : ∀ a ∈ announcements, a.isValid = true ∧ a.nodeId = n)
    (hdistinct :
      ((r.candidates n announcements).map DiscoveryAnnouncement.timestamp).Nodup)
    (hl : ∀ a, a ∈ l ↔ a ∈ announcements) (hne : l ≠ []) :
    (r.upsertAnnouncements clock l ticks).Holds n (l.getLast hne) ∧
      ((∀ a ∈ r.candidates n announcements, Newest (r.candidates n announcements) a →
          (r.upsertAnnouncements clock l ticks).Holds n a) ↔
        Newest (r.candidates n announcements) (l.getLast hne)) := by
  obtain ⟨p, hp, hlast⟩ := get_upsertAnnouncements clock hne
    (fun a ha ↦ hvalid a ((hl a).mp ha)) r ticks
  have hholds : (r.upsertAnnouncements clock l ticks).Holds n (l.getLast hne) :=
    ⟨p, hp, by rw [hlast], by rw [hlast], by rw [hlast]⟩
  have hmem : l.getLast hne ∈ r.candidates n announcements :=
    List.mem_append_right _ ((hl _).mp (List.getLast_mem hne))
  refine ⟨hholds, fun h ↦ ?_, fun hnewest a ha ha' ↦ ?_⟩
  · obtain ⟨a, ha, hnewest⟩ := exists_newest (List.ne_nil_of_mem hmem)
    obtain ⟨q, hq, -, -, htime⟩ := h a ha hnewest
    obtain rfl : p = q := by rw [hp] at hq; exact Option.some.inj hq
    intro b hb
    rw [← hlast, htime]
    exact hnewest b hb
  · rw [eq_of_newest hdistinct ha hmem ha' hnewest]
    exact hholds

section Addresses

def announcedAt (port : UInt16) (millis : Int64) : DiscoveryAnnouncement :=
  .create (ascii "node-a") (ascii "127.0.0.1") port ⟨millis⟩

def steadyClock (i : ℕ) : Timestamp := ⟨Int64.ofNat (i + 1000)⟩

theorem upsertAnnouncements_last_wins_in_order :
    (({} : DiscoveryRegistry).upsertAnnouncements steadyClock
      [announcedAt 9400 100, announcedAt 9500 200] 0).Holds (ascii "node-a")
        (announcedAt 9500 200) :=
  (upsertAnnouncements_last_wins (r := {}) (n := ascii "node-a") steadyClock 0
    (by decide) (by decide) (fun a ↦ Iff.rfl)
    (l := [announcedAt 9400 100, announcedAt 9500 200]) (by simp)).1

/-- The announcement of the old address arrives late and restores it. -/
theorem upsertAnnouncements_late :
    let announcements := [announcedAt 9400 100, announcedAt 9500 200]
    let l := [announcedAt 9500 200, announcedAt 9400 100]
    let r : DiscoveryRegistry := {}
    (∀ a ∈ announcements, a.isValid = true ∧ a.nodeId = ascii "node-a") ∧
      ((r.candidates (ascii "node-a") announcements).map
        DiscoveryAnnouncement.timestamp).Nodup ∧
      l.Perm announcements ∧
      announcedAt 9500 200 ∈ r.candidates (ascii "node-a") announcements ∧
      Newest (r.candidates (ascii "node-a") announcements) (announcedAt 9500 200) ∧
      ¬ (r.upsertAnnouncements steadyClock l 0).Holds (ascii "node-a") (announcedAt 9500 200) := by
  refine ⟨by decide, by decide, .swap _ _ _, by decide, by unfold Newest; decide, ?_⟩
  rintro ⟨p, hp, -, hport, -⟩
  have hlate : ((({} : DiscoveryRegistry).upsertAnnouncements steadyClock
      [announcedAt 9500 200, announcedAt 9400 100] 0).get (ascii "node-a")).map
        (fun p ↦ p.announcement.port) = some 9400 := by decide
  rw [hp, Option.map_some, hport] at hlate
  revert hlate
  decide

end Addresses

end DiscoveryRegistry

end Discovery

import ResourceHandles.Configuration
import ResourceHandles.Proofs.Toml.Line

/-!
# The text of a configuration is read back

A configuration is written as three lines, one for each key.  Reading them puts three
members into the top table, from which the configuration comes out again.  Every size
below the limit is read back, and every host whatsoever.
-/

namespace ResourceHandles.Configuration

open Toml

/-- The members of the text of a configuration. -/
def members (configuration : Configuration) : Members :=
  [("mode", .string configuration.mode.text), ("buffer_size", .integer configuration.bufferSize),
    ("wildcard_host", .string configuration.wildcardHost)]

theorem ofWord?_text (mode : CallMode) : CallMode.ofWord? mode.text = some mode := by
  cases mode with
  | preResolved => rfl
  | deferred => rfl

theorem ofMembers?_members
    {configuration : Configuration} (hsize : configuration.bufferSize < bufferSizeLimit) :
    ofMembers? configuration.members = some configuration := by
  have hread :
      bufferSizeOf? (.integer configuration.bufferSize) = some configuration.bufferSize := by
    rw [bufferSizeOf?, if_pos ⟨Int.natCast_nonneg _, Int.ofNat_lt.mpr hsize⟩, Int.toNat_natCast]
  have hmode : Members.find? configuration.members "mode" =
      some (.string configuration.mode.text) := rfl
  have hbufferSize : Members.find? configuration.members "buffer_size" =
      some (.integer configuration.bufferSize) := rfl
  have hwildcardHost : Members.find? configuration.members "wildcard_host" =
      some (.string configuration.wildcardHost) := rfl
  simp [ofMembers?, member?, hmode, hbufferSize, hwildcardHost, modeOf?, ofWord?_text, hread,
    hostOf?]

theorem isBareKey_mode : IsBareKey "mode".toList :=
  ⟨by decide, List.all_eq_true.mp rfl⟩

theorem isBareKey_bufferSize : IsBareKey "buffer_size".toList :=
  ⟨by decide, List.all_eq_true.mp rfl⟩

theorem isBareKey_wildcardHost : IsBareKey "wildcard_host".toList :=
  ⟨by decide, List.all_eq_true.mp rfl⟩

theorem toList_render (configuration : Configuration) :
    configuration.render.toList =
      "mode".toList ++ ' ' :: '=' :: ' ' ::
        (writeString configuration.mode.text.toList ++ '\n' ::
          ("buffer_size".toList ++ ' ' :: '=' :: ' ' ::
            (Nat.toDigits 10 configuration.bufferSize ++ '\n' ::
              ("wildcard_host".toList ++ ' ' :: '=' :: ' ' ::
                (writeString configuration.wildcardHost.toList ++ '\n' :: ['\n']))))) := by
  simp [render]

theorem readLines?_end (fuel : Nat) (state : State) :
    readLines? (fuel + 2) state ['\n'] = some state := by
  rfl

theorem readDocument?_render
    {configuration : Configuration} (hsize : configuration.bufferSize < bufferSizeLimit) :
    readDocument? configuration.render.toList = some configuration.members := by
  have hrange : (configuration.bufferSize : Int) ≤ maxWideInteger := by
    unfold bufferSizeLimit at hsize
    unfold maxWideInteger
    omega
  have hfuel : 4 ≤ configuration.render.toList.length := by
    rw [toList_render]
    simp
  obtain ⟨fuel, hfuel⟩ := Nat.exists_eq_add_of_le' hfuel
  have hmark : ∀ rest, dropByteOrderMark ("mode".toList ++ rest) = "mode".toList ++ rest :=
    fun rest => rfl
  rw [readDocument?, hfuel, toList_render, hmark,
    isBareKey_mode.readLines? rfl (valueText_string _),
    isBareKey_bufferSize.readLines? rfl (valueText_integer hrange),
    isBareKey_wildcardHost.readLines? rfl (valueText_string _), readLines?_end]
  simp [members]

/-- Reading the text of a configuration gives the configuration again. -/
theorem parse?_render
    {configuration : Configuration} (hsize : configuration.bufferSize < bufferSizeLimit) :
    parse? configuration.render = some configuration := by
  rw [parse?, readDocument?_render hsize]
  exact ofMembers?_members hsize

end ResourceHandles.Configuration

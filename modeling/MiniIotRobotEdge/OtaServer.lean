import MiniIotRobotEdge.DecimalText

/-!
# The update check of mini-ota-update

The model of `ota_server_check_update` and of the calls that build the list of releases.  The
check compares versions as strings, and for a device on the stable channel it looks at the
releases of all channels.
-/

namespace MiniIotRobotEdge

namespace Ota

open DecimalText

inductive OtaChannel
  | dev
  | beta
  | stable
  deriving DecidableEq, Repr

inductive OtaServerResult
  | errServer
  | errNotFound
  deriving DecidableEq, Repr

/-- `ota_firmware_release_t`; `details` stands for the fields that are copied and not read. -/
structure OtaFirmwareRelease (δ : Type*) where
  version : List UInt8
  channel : OtaChannel
  details : δ

structure OtaServer (δ : Type*) where
  initialized : Bool
  releases : List (OtaFirmwareRelease δ)

variable {δ : Type*}

/-- The release goes to the end of the array; the time stamps are among its details. -/
def otaServerCreateRelease (server : OtaServer δ) (release : OtaFirmwareRelease δ) : OtaServer δ :=
  { server with releases := server.releases ++ [release] }

/-- The first release with the version moves to the channel. -/
def setFirstChannel (releaseId : List UInt8) (channel : OtaChannel) :
    List (OtaFirmwareRelease δ) → Option (List (OtaFirmwareRelease δ))
  | [] => none
  | release :: rest =>
      if strcmp release.version releaseId = 0 then
        some ({ release with channel := channel } :: rest)
      else (setFirstChannel releaseId channel rest).map (release :: ·)

def otaServerSetChannel (server : OtaServer δ) (releaseId : List UInt8) (channel : OtaChannel) :
    Except OtaServerResult (OtaServer δ) :=
  match setFirstChannel releaseId channel server.releases with
  | some releases => .ok { server with releases := releases }
  | none => .error .errNotFound

/-- The loop of `ota_server_check_update`. -/
def findUpdate (currentVersion : List UInt8) (channel : OtaChannel) :
    List (OtaFirmwareRelease δ) → Option (OtaFirmwareRelease δ)
  | [] => none
  | release :: rest =>
      if release.channel = channel ∨ channel = .stable then
        if 0 < strcmp release.version currentVersion then some release
        else findUpdate currentVersion channel rest
      else findUpdate currentVersion channel rest

def otaServerCheckUpdate (server : OtaServer δ) (currentVersion : List UInt8)
    (channel : OtaChannel) : Except OtaServerResult (OtaFirmwareRelease δ) :=
  if server.initialized then
    match findUpdate currentVersion channel server.releases with
    | some release => .ok release
    | none => .error .errNotFound
  else .error .errServer

structure SemVersion where
  major : Nat
  minor : Nat
  patch : Nat
  deriving DecidableEq, Repr

namespace SemVersion

/-- `major.minor.patch`. -/
def text (version : SemVersion) : List UInt8 :=
  decimal version.major ++ 46 :: (decimal version.minor ++ 46 :: decimal version.patch)

/-- The numbers at the first place where the versions differ are ordered. -/
def FirstDiffer (later : Nat → Nat → Prop) (version current : SemVersion) : Prop :=
  (version.major ≠ current.major ∧ later version.major current.major) ∨
    (version.major = current.major ∧
      ((version.minor ≠ current.minor ∧ later version.minor current.minor) ∨
        (version.minor = current.minor ∧ later version.patch current.patch)))

/-- The first number that differs is larger. -/
def Newer (version current : SemVersion) : Prop :=
  FirstDiffer (fun number other => other < number) version current

/-- The first number that differs comes later in a dictionary. -/
def LaterText (version current : SemVersion) : Prop :=
  FirstDiffer (fun number other => 0 < strcmp (decimal number) (decimal other)) version current

instance (version current : SemVersion) : Decidable (version.Newer current) :=
  inferInstanceAs (Decidable (_ ∨ _))

instance (version current : SemVersion) : Decidable (version.LaterText current) :=
  inferInstanceAs (Decidable (_ ∨ _))

example : (SemVersion.mk 1 9 0).LaterText ⟨1, 10, 0⟩ ∧ (SemVersion.mk 1 10 0).Newer ⟨1, 9, 0⟩ := by
  decide

theorem endsNumber_dot (rest : List UInt8) : EndsNumber (46 :: rest) := by
  intro character isFirst
  obtain rfl := Option.some.inj isFirst
  decide

theorem decimal_ne {first second : Nat} (differ : first ≠ second) :
    decimal first ≠ decimal second :=
  fun same => differ (decimal_injective same)

theorem digits_decimal (number : Nat) : ∀ character ∈ decimal number, IsDigit character :=
  fun _ => isDigit_of_mem

/-- The strings of two versions are compared number by number. -/
theorem strcmp_text_pos_iff (version current : SemVersion) :
    0 < strcmp version.text current.text ↔ version.LaterText current := by
  rw [LaterText, FirstDiffer, text, text]
  by_cases major : version.major = current.major
  · rw [major, strcmp_append_same, strcmp_cons_self]
    by_cases minor : version.minor = current.minor
    · rw [minor, strcmp_append_same, strcmp_cons_self]
      simp
    · rw [strcmp_append_pos_iff (digits_decimal _) (digits_decimal _) (decimal_ne minor)
        (endsNumber_dot _) (endsNumber_dot _)]
      simp [minor]
  · rw [strcmp_append_pos_iff (digits_decimal _) (digits_decimal _) (decimal_ne major)
      (endsNumber_dot _) (endsNumber_dot _)]
    simp [major]

/-- Versions whose numbers have the same numbers of digits are ordered like their strings. -/
theorem laterText_iff_newer {version current : SemVersion}
    (major : (decimal version.major).length = (decimal current.major).length)
    (minor : (decimal version.minor).length = (decimal current.minor).length)
    (patch : (decimal version.patch).length = (decimal current.patch).length) :
    version.LaterText current ↔ version.Newer current := by
  rw [LaterText, Newer, FirstDiffer, FirstDiffer, strcmp_decimal_pos_iff major,
    strcmp_decimal_pos_iff minor, strcmp_decimal_pos_iff patch]

theorem text_injective {first second : SemVersion} (same : first.text = second.text) :
    first = second := by
  obtain ⟨major, rest⟩ := append_inj_of_digits (digits_decimal _) (digits_decimal _)
    (endsNumber_dot _) (endsNumber_dot _) same
  obtain ⟨minor, patch⟩ := append_inj_of_digits (digits_decimal _) (digits_decimal _)
    (endsNumber_dot _) (endsNumber_dot _) (List.cons.inj rest).2
  have majorSame := decimal_injective major
  have minorSame := decimal_injective minor
  have patchSame := decimal_injective (List.cons.inj patch).2
  cases first
  cases second
  rw [SemVersion.mk.injEq]
  exact ⟨majorSame, minorSame, patchSame⟩

end SemVersion

/-- A release whose version has the form `major.minor.patch`. -/
structure CreatedRelease (δ : Type*) where
  version : SemVersion
  channel : OtaChannel
  details : δ

namespace CreatedRelease

def release (created : CreatedRelease δ) : OtaFirmwareRelease δ :=
  ⟨created.version.text, created.channel, created.details⟩

/-- The release is an update for a device of the channel. -/
def Fits (current : SemVersion) (channel : OtaChannel) (created : CreatedRelease δ) : Prop :=
  created.channel = channel ∧ created.version.Newer current

/-- The two tests of the loop. -/
def Passes (current : SemVersion) (channel : OtaChannel) (created : CreatedRelease δ) : Prop :=
  (created.channel = channel ∨ channel = .stable) ∧ created.version.LaterText current

instance (current : SemVersion) (channel : OtaChannel) (created : CreatedRelease δ) :
    Decidable (created.Fits current channel) :=
  inferInstanceAs (Decidable (_ ∧ _))

instance (current : SemVersion) (channel : OtaChannel) (created : CreatedRelease δ) :
    Decidable (created.Passes current channel) :=
  inferInstanceAs (Decidable (_ ∧ _))

theorem release_injective {first second : CreatedRelease δ}
    (same : first.release = second.release) : first = second := by
  obtain ⟨version, channel, details⟩ := OtaFirmwareRelease.mk.inj same
  cases first
  cases second
  cases SemVersion.text_injective version
  cases channel
  cases details
  rfl

/-- Off the stable channel the tests are right about numbers of the same length. -/
theorem passes_iff_fits {current : SemVersion} {channel : OtaChannel} {created : CreatedRelease δ}
    (unstable : channel ≠ .stable)
    (major : (decimal created.version.major).length = (decimal current.major).length)
    (minor : (decimal created.version.minor).length = (decimal current.minor).length)
    (patch : (decimal created.version.patch).length = (decimal current.patch).length) :
    created.Passes current channel ↔ created.Fits current channel := by
  rw [Passes, Fits, SemVersion.laterText_iff_newer major minor patch, or_iff_left unstable]

end CreatedRelease

/-- What the requests make of the list of releases. -/
inductive ServerRequest (δ : Type*)
  | createRelease (created : CreatedRelease δ)
  | setChannel (version : SemVersion) (channel : OtaChannel)

/-- A request for a missing release leaves the server as it is. -/
def serve (server : OtaServer δ) : ServerRequest δ → OtaServer δ
  | .createRelease created => otaServerCreateRelease server created.release
  | .setChannel version channel =>
      match otaServerSetChannel server version.text channel with
      | .ok updated => updated
      | .error _ => server

def otaServerInit : OtaServer δ := ⟨true, []⟩

theorem setFirstChannel_releases {version : List UInt8} {channel : OtaChannel}
    {created : List (CreatedRelease δ)} {releases : List (OtaFirmwareRelease δ)}
    (changed : setFirstChannel version channel (created.map CreatedRelease.release) =
      some releases) :
    ∃ updated : List (CreatedRelease δ), releases = updated.map CreatedRelease.release := by
  induction created generalizing releases with
  | nil => simp [setFirstChannel] at changed
  | cons first rest ih =>
      rw [List.map_cons, setFirstChannel] at changed
      split at changed
      · obtain rfl := Option.some.inj changed
        exact ⟨{ first with channel := channel } :: rest, rfl⟩
      · obtain ⟨tail, tailChanged, rfl⟩ := Option.map_eq_some_iff.mp changed
        obtain ⟨updated, rfl⟩ := ih tailChanged
        exact ⟨first :: updated, rfl⟩

theorem serve_releases (created : List (CreatedRelease δ)) (request : ServerRequest δ) :
    ∃ updated : List (CreatedRelease δ), serve ⟨true, created.map CreatedRelease.release⟩ request =
      ⟨true, updated.map CreatedRelease.release⟩ := by
  cases request with
  | createRelease added =>
      exact ⟨created ++ [added], by simp [serve, otaServerCreateRelease]⟩
  | setChannel version channel =>
      rw [serve, otaServerSetChannel]
      cases changed : setFirstChannel version.text channel
          (created.map CreatedRelease.release) with
      | none => exact ⟨created, rfl⟩
      | some releases =>
          obtain ⟨updated, rfl⟩ := setFirstChannel_releases changed
          exact ⟨updated, rfl⟩

/-- The versions keep their form over every sequence of requests. -/
theorem releases_of_requests (requests : List (ServerRequest δ)) :
    ∃ created : List (CreatedRelease δ), requests.foldl serve otaServerInit =
      ⟨true, created.map CreatedRelease.release⟩ := by
  have run : ∀ (requests : List (ServerRequest δ)) (created : List (CreatedRelease δ)),
      ∃ updated : List (CreatedRelease δ),
        requests.foldl serve ⟨true, created.map CreatedRelease.release⟩ =
        ⟨true, updated.map CreatedRelease.release⟩ := by
    intro requests
    induction requests with
    | nil => exact fun created => ⟨created, rfl⟩
    | cons request rest ih =>
        intro created
        obtain ⟨updated, step⟩ := serve_releases created request
        rw [List.foldl_cons, step]
        exact ih updated
  exact run requests []

variable {created : List (CreatedRelease δ)} {current : SemVersion} {channel : OtaChannel}

theorem findUpdate_eq (created : List (CreatedRelease δ)) (current : SemVersion)
    (channel : OtaChannel) :
    findUpdate current.text channel (created.map CreatedRelease.release) =
      (created.find? fun update => update.Passes current channel).map CreatedRelease.release := by
  induction created with
  | nil => rfl
  | cons first rest ih =>
      have newer : 0 < strcmp first.release.version current.text ↔
          first.version.LaterText current := SemVersion.strcmp_text_pos_iff _ _
      rw [List.map_cons, findUpdate, ih, List.find?_cons]
      by_cases passes : first.Passes current channel
      · have channels : first.release.channel = channel ∨ channel = .stable := passes.1
        rw [decide_eq_true passes, if_pos channels, if_pos (newer.mpr passes.2)]
        rfl
      · rw [decide_eq_false passes]
        split_ifs with channels versions
        · exact absurd ⟨channels, newer.mp versions⟩ passes
        · rfl
        · rfl

/-- What a device may expect of the check. -/
structure OffersUpdates (created : List (CreatedRelease δ)) (current : SemVersion)
    (channel : OtaChannel) (result : Except OtaServerResult (OtaFirmwareRelease δ)) : Prop where
  sound : ∀ release, result = .ok release →
    ∃ update ∈ created, update.release = release ∧ update.Fits current channel
  complete : (∃ update ∈ created, update.Fits current channel) → ∃ release, result = .ok release

/-- The tests of the loop err without effect. -/
structure TestsSuffice (created : List (CreatedRelease δ)) (current : SemVersion)
    (channel : OtaChannel) : Prop where
  behind : ∀ front wrong rest, created = front ++ wrong :: rest → wrong.Passes current channel →
    ¬wrong.Fits current channel →
    ∃ update ∈ front, update.Passes current channel ∧ update.Fits current channel
  found : (∃ update ∈ created, update.Fits current channel) →
    ∃ update ∈ created, update.Passes current channel ∧ update.Fits current channel

/-- The tests never err off the stable channel, among numbers of the same length. -/
theorem testsSuffice_of_same_lengths (unstable : channel ≠ .stable)
    (major : ∀ update ∈ created,
      (decimal update.version.major).length = (decimal current.major).length)
    (minor : ∀ update ∈ created,
      (decimal update.version.minor).length = (decimal current.minor).length)
    (patch : ∀ update ∈ created,
      (decimal update.version.patch).length = (decimal current.patch).length) :
    TestsSuffice created current channel := by
  have right : ∀ update ∈ created,
      (update.Passes current channel ↔ update.Fits current channel) := fun update member =>
    CreatedRelease.passes_iff_fits unstable (major update member) (minor update member)
      (patch update member)
  constructor
  · intro front wrong rest split passes misfit
    have member : wrong ∈ created := by simp [split]
    exact absurd ((right wrong member).mp passes) misfit
  · rintro ⟨update, member, fits⟩
    exact ⟨update, member, (right update member).mpr fits, fits⟩

theorem otaServerCheckUpdate_eq_ok_iff {release : OtaFirmwareRelease δ} :
    otaServerCheckUpdate ⟨true, created.map CreatedRelease.release⟩ current.text channel =
        .ok release ↔
      ∃ update, created.find? (fun update => update.Passes current channel) = some update ∧
        update.release = release := by
  rw [otaServerCheckUpdate, if_pos rfl, findUpdate_eq]
  cases created.find? fun update => update.Passes current channel with
  | none => simp
  | some update => simp

/-- The first release that passes the tests. -/
theorem find?_passes_eq_some_iff {update : CreatedRelease δ} :
    created.find? (fun update => update.Passes current channel) = some update ↔
      update.Passes current channel ∧ ∃ front rest, created = front ++ update :: rest ∧
        ∀ earlier ∈ front, ¬earlier.Passes current channel := by
  simp [List.find?_eq_some_iff_append]

theorem exists_find?_passes (passes : ∃ update ∈ created, update.Passes current channel) :
    ∃ update, created.find? (fun update => update.Passes current channel) = some update := by
  rw [← Option.isSome_iff_exists, List.find?_isSome]
  obtain ⟨update, member, passes⟩ := passes
  exact ⟨update, member, decide_eq_true passes⟩

theorem offersUpdates_of_testsSuffice (suffice : TestsSuffice created current channel) :
    OffersUpdates created current channel
      (otaServerCheckUpdate ⟨true, created.map CreatedRelease.release⟩ current.text channel) where
  sound release offered := by
    obtain ⟨update, isFirst, rfl⟩ := otaServerCheckUpdate_eq_ok_iff.mp offered
    refine ⟨update, List.mem_of_find?_eq_some isFirst, rfl, ?_⟩
    obtain ⟨passes, front, rest, split, none⟩ := find?_passes_eq_some_iff.mp isFirst
    by_contra wrong
    obtain ⟨earlier, member, earlierPasses, -⟩ :=
      suffice.behind front update rest split passes wrong
    exact none earlier member earlierPasses
  complete exist := by
    obtain ⟨update, member, passes, -⟩ := suffice.found exist
    obtain ⟨first, isFirst⟩ := exists_find?_passes ⟨update, member, passes⟩
    exact ⟨first.release, otaServerCheckUpdate_eq_ok_iff.mpr ⟨first, isFirst, rfl⟩⟩

theorem fits_of_offersUpdates {update : CreatedRelease δ}
    (offers : OffersUpdates created current channel
      (otaServerCheckUpdate ⟨true, created.map CreatedRelease.release⟩ current.text channel))
    (isFirst : created.find? (fun update => update.Passes current channel) = some update) :
    update.Fits current channel := by
  obtain ⟨other, -, same, fits⟩ := offers.sound update.release
    (otaServerCheckUpdate_eq_ok_iff.mpr ⟨update, isFirst, rfl⟩)
  rwa [CreatedRelease.release_injective same] at fits

theorem testsSuffice_of_offersUpdates
    (offers : OffersUpdates created current channel
      (otaServerCheckUpdate ⟨true, created.map CreatedRelease.release⟩ current.text channel)) :
    TestsSuffice created current channel where
  behind front wrong rest split passes misfit := by
    by_cases earlier : ∃ update ∈ front, update.Passes current channel
    · obtain ⟨first, isFirst⟩ := exists_find?_passes earlier
      refine ⟨first, List.mem_of_find?_eq_some isFirst, (find?_passes_eq_some_iff.mp isFirst).1, ?_⟩
      apply fits_of_offersUpdates offers
      rw [split, List.find?_append, isFirst, Option.some_or]
    · apply absurd (fits_of_offersUpdates offers _) misfit
      rw [find?_passes_eq_some_iff]
      exact ⟨passes, front, rest, split, fun update member updatePasses =>
        earlier ⟨update, member, updatePasses⟩⟩
  found exist := by
    obtain ⟨release, offered⟩ := offers.complete exist
    obtain ⟨update, isFirst, -⟩ := otaServerCheckUpdate_eq_ok_iff.mp offered
    exact ⟨update, List.mem_of_find?_eq_some isFirst, (find?_passes_eq_some_iff.mp isFirst).1,
      fits_of_offersUpdates offers isFirst⟩

/-- Devices get their updates exactly when no test errs with effect. -/
theorem otaServerCheckUpdate_offers_iff (created : List (CreatedRelease δ)) (current : SemVersion)
    (channel : OtaChannel) :
    OffersUpdates created current channel
        (otaServerCheckUpdate ⟨true, created.map CreatedRelease.release⟩ current.text channel) ↔
      TestsSuffice created current channel :=
  ⟨testsSuffice_of_offersUpdates, offersUpdates_of_testsSuffice⟩

/-- A stable device at `1.9.0` is offered a development release and not the stable `1.10.0`. -/
theorem otaServerCheckUpdate_offers_dev :
    ¬OffersUpdates [⟨⟨1, 10, 0⟩, .stable, ()⟩, ⟨⟨2, 0, 0⟩, .dev, ()⟩] ⟨1, 9, 0⟩ .stable
      (otaServerCheckUpdate
        ⟨true, ([⟨⟨1, 10, 0⟩, .stable, ()⟩, ⟨⟨2, 0, 0⟩, .dev, ()⟩] : List (CreatedRelease Unit)).map
          CreatedRelease.release⟩ (SemVersion.mk 1 9 0).text .stable) := by
  intro offers
  have offered := offers.sound (CreatedRelease.mk ⟨2, 0, 0⟩ .dev ()).release rfl
  obtain ⟨update, -, same, channel, -⟩ := offered
  have otherChannel : update.channel = .dev := congrArg OtaFirmwareRelease.channel same
  rw [otherChannel] at channel
  cases channel

end Ota

end MiniIotRobotEdge

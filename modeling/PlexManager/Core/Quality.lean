/-!
# Qualities and profiles

A quality is a source, a resolution and a modifier under a name, with a weight
that orders it among the others. A profile lists qualities from low to high and
says of each whether it is wanted. The default profile lists all of them by
weight, and the ones below SDTV are not wanted: that is the hard cutoff, since a
quality the profile does not allow is rejected and never ranked.
-/

namespace PlexManager

namespace Quality

inductive QualitySource where
  | unknown
  | cam
  | telesync
  | telecine
  | workprint
  | dvd
  | tv
  | webdl
  | webrip
  | bluray
  deriving DecidableEq, Repr

inductive Resolution where
  | unknown
  | r360p
  | r480p
  | r540p
  | r576p
  | r720p
  | r1080p
  | r2160p
  deriving DecidableEq, Repr

inductive Modifier where
  | none
  | regional
  | screener
  | rawhd
  | brdisk
  | remux
  deriving DecidableEq, Repr

end Quality

open Quality in
structure Quality where
  id : Nat
  name : String
  source : QualitySource
  resolution : Resolution
  modifier : Modifier
  weight : Nat
  deriving DecidableEq, Repr

namespace Quality

/-! ### The registry -/

def unknown : Quality := ⟨0, "Unknown", .unknown, .unknown, .none, 1⟩
def workprint : Quality := ⟨24, "WORKPRINT", .workprint, .unknown, .none, 2⟩
def cam : Quality := ⟨25, "CAM", .cam, .unknown, .none, 3⟩
def telesync : Quality := ⟨26, "TELESYNC", .telesync, .unknown, .none, 4⟩
def telecine : Quality := ⟨27, "TELECINE", .telecine, .unknown, .none, 5⟩
def regional : Quality := ⟨29, "REGIONAL", .dvd, .r480p, .regional, 6⟩
def dvdscr : Quality := ⟨28, "DVDSCR", .dvd, .r480p, .screener, 7⟩
def sdtv : Quality := ⟨1, "SDTV", .tv, .r480p, .none, 8⟩
def dvd : Quality := ⟨2, "DVD", .dvd, .unknown, .none, 9⟩
def dvdr : Quality := ⟨23, "DVD-R", .dvd, .r480p, .remux, 10⟩
def webdl480p : Quality := ⟨8, "WEBDL-480p", .webdl, .r480p, .none, 11⟩
def webrip480p : Quality := ⟨12, "WEBRip-480p", .webrip, .r480p, .none, 11⟩
def bluray480p : Quality := ⟨20, "Bluray-480p", .bluray, .r480p, .none, 12⟩
def bluray576p : Quality := ⟨21, "Bluray-576p", .bluray, .r576p, .none, 13⟩
def hdtv720p : Quality := ⟨4, "HDTV-720p", .tv, .r720p, .none, 14⟩
def webdl720p : Quality := ⟨5, "WEBDL-720p", .webdl, .r720p, .none, 15⟩
def webrip720p : Quality := ⟨14, "WEBRip-720p", .webrip, .r720p, .none, 15⟩
def bluray720p : Quality := ⟨6, "Bluray-720p", .bluray, .r720p, .none, 16⟩
def hdtv1080p : Quality := ⟨9, "HDTV-1080p", .tv, .r1080p, .none, 17⟩
def webdl1080p : Quality := ⟨3, "WEBDL-1080p", .webdl, .r1080p, .none, 18⟩
def webrip1080p : Quality := ⟨15, "WEBRip-1080p", .webrip, .r1080p, .none, 18⟩
def bluray1080p : Quality := ⟨7, "Bluray-1080p", .bluray, .r1080p, .none, 19⟩
def remux1080p : Quality := ⟨30, "Remux-1080p", .bluray, .r1080p, .remux, 20⟩
def hdtv2160p : Quality := ⟨16, "HDTV-2160p", .tv, .r2160p, .none, 21⟩
def webdl2160p : Quality := ⟨18, "WEBDL-2160p", .webdl, .r2160p, .none, 22⟩
def webrip2160p : Quality := ⟨17, "WEBRip-2160p", .webrip, .r2160p, .none, 22⟩
def bluray2160p : Quality := ⟨19, "Bluray-2160p", .bluray, .r2160p, .none, 23⟩
def remux2160p : Quality := ⟨31, "Remux-2160p", .bluray, .r2160p, .remux, 24⟩
def brdisk : Quality := ⟨22, "BR-DISK", .bluray, .r1080p, .brdisk, 25⟩
def rawhd : Quality := ⟨10, "Raw-HD", .tv, .r1080p, .rawhd, 26⟩

/-- `ALL_QUALITIES`: low to high by weight, and WEBRip before WEBDL where these
    weigh the same. -/
def allQualities : List Quality :=
  [unknown, workprint, cam, telesync, telecine, regional, dvdscr, sdtv, dvd, dvdr, webrip480p,
    webdl480p, bluray480p, bluray576p, hdtv720p, webrip720p, webdl720p, bluray720p, hdtv1080p,
    webrip1080p, webdl1080p, bluray1080p, remux1080p, hdtv2160p, webrip2160p, webdl2160p,
    bluray2160p, remux2160p, brdisk, rawhd]

/-! ### Profiles -/

structure QualityProfileItem where
  qualityId : Nat
  allowed : Bool
  deriving DecidableEq, Repr

structure QualityProfile where
  id : Nat
  name : String
  cutoffQualityId : Nat
  items : List QualityProfileItem
  minFormatScore : Int := 0
  upgradeAllowed : Bool := true
  deriving DecidableEq, Repr

def QualityProfile.getIndex (profile : QualityProfile) (qualityId : Nat) : Option Nat :=
  profile.items.findIdx? fun item => item.qualityId == qualityId

/-- `DISALLOWED_BY_DEFAULT_IDS`: every quality that weighs less than SDTV. -/
def disallowedByDefaultIds : List Nat :=
  (allQualities.filter fun q => q.weight < sdtv.weight).map (·.id)

def defaultProfile : QualityProfile where
  id := 1
  name := "Default"
  cutoffQualityId := webdl1080p.id
  items := allQualities.map fun q => ⟨q.id, !disallowedByDefaultIds.contains q.id⟩

inductive RejectionReason where
  | qualityNotWanted
  | formatScoreTooLow
  | noQualityDetected
  | blocklisted
  | wrongMedia
  | multiSeasonPack
  | notSeasonPack
  | episodeNotNeeded
  deriving DecidableEq, Repr

structure QualityVerdict where
  accepted : Bool
  reason : Option RejectionReason
  quality : Quality
  deriving DecidableEq, Repr

def QualityProfile.allows (profile : QualityProfile) (qualityId : Nat) : Bool :=
  match profile.getIndex qualityId with
  | none => false
  | some index => (profile.items[index]?.map (·.allowed)).getD false

def checkQuality (quality : Quality) (profile : QualityProfile) : QualityVerdict :=
  if profile.allows quality.id then ⟨true, none, quality⟩
  else ⟨false, some .qualityNotWanted, quality⟩

/-- `(a > b) - (a < b)`. -/
def compareInt (a b : Int) : Int := (if b < a then 1 else 0) - (if a < b then 1 else 0)

/-- `compare_by_profile`: by position in the profile, and below all of it where
    there is none. -/
def compareByProfile (a b : Quality) (profile : QualityProfile) : Int :=
  match profile.getIndex a.id, profile.getIndex b.id with
  | none, none => 0
  | none, some _ => -1
  | some _, none => 1
  | some ia, some ib => compareInt ia ib

@[simp] theorem checkQuality_accepted (quality : Quality) (profile : QualityProfile) :
    (checkQuality quality profile).accepted = profile.allows quality.id := by
  unfold checkQuality
  cases profile.allows quality.id with
  | false | true => rfl

end Quality

end PlexManager

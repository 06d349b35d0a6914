/-
# What a calibration is asked for

The enumerations of `autotune.rs` that requests, permits and proposals share, with their words.
-/

import CakeAutorate.Protocol.CapturePolicy

namespace CakeAutorate.Autotune

open Wire (Text)
open Protocol (ofWord)

/-- What kind of interface it is. -/
inductive LinkKind where
  | ethernet
  | pppoe
  | cellular
  | unknown
  deriving DecidableEq

/-- What the rates are tuned for. -/
inductive AutotuneProfile where
  | gaming
  | gamingExtreme
  | bestOverall
  | variableLink
  | fair
  deriving DecidableEq

def AutotuneProfile.asStr : AutotuneProfile → String
  | .gaming => "gaming"
  | .gamingExtreme => "gaming_extreme"
  | .bestOverall => "best_overall"
  | .variableLink => "variable_link"
  | .fair => "fair"

/-- `AutotuneProfile::parse`, with its other spellings. -/
def AutotuneProfile.parse : Text → Option AutotuneProfile :=
  ofWord [("gaming", .gaming), ("gaming_extreme", .gamingExtreme), ("gaming-extreme", .gamingExtreme),
    ("extreme_gaming", .gamingExtreme), ("best_overall", .bestOverall),
    ("best-overall", .bestOverall), ("balanced", .bestOverall), ("variable_link", .variableLink),
    ("variable-link", .variableLink), ("variable", .variableLink), ("fair", .fair)]

/-- The kind of the access line. -/
inductive AccessMedium where
  | cellular
  | leoSatellite
  | geoSatellite
  | fixedWireless
  | sharedWired
  | unknown

def AccessMedium.asStr : AccessMedium → String
  | .cellular => "cellular"
  | .leoSatellite => "leo_satellite"
  | .geoSatellite => "geo_satellite"
  | .fixedWireless => "fixed_wireless"
  | .sharedWired => "shared_wired"
  | .unknown => "unknown"

/-- `AccessMedium::parse`, with its other spellings. -/
def AccessMedium.parse : Text → Option AccessMedium :=
  ofWord [("cellular", .cellular), ("4g", .cellular), ("5g", .cellular),
    ("leo_satellite", .leoSatellite), ("leo-satellite", .leoSatellite), ("leo", .leoSatellite),
    ("geo_satellite", .geoSatellite), ("geo-satellite", .geoSatellite), ("geo", .geoSatellite),
    ("high_latency_satellite", .geoSatellite), ("fixed_wireless", .fixedWireless),
    ("fixed-wireless", .fixedWireless), ("wisp", .fixedWireless), ("wifi_bridge", .fixedWireless),
    ("shared_wired", .sharedWired), ("shared-wired", .sharedWired), ("shared", .sharedWired),
    ("unknown", .unknown)]

/-- Where the kind of the line is known from. -/
inductive AccessEvidenceSource where
  | userSelected
  | networkProtocol
  | deviceType
  | interfaceName
  | autoInconclusive
  | legacyDefault
  deriving DecidableEq

def AccessEvidenceSource.asStr : AccessEvidenceSource → String
  | .userSelected => "user_selected"
  | .networkProtocol => "network_protocol"
  | .deviceType => "device_type"
  | .interfaceName => "interface_name"
  | .autoInconclusive => "auto_inconclusive"
  | .legacyDefault => "legacy_default"

def AccessEvidenceSource.parse : Text → Option AccessEvidenceSource :=
  ofWord [("user_selected", .userSelected), ("network_protocol", .networkProtocol),
    ("device_type", .deviceType), ("interface_name", .interfaceName),
    ("auto_inconclusive", .autoInconclusive), ("legacy_default", .legacyDefault)]

/-- How the capacity may be learned. -/
inductive CapacityLearningPolicy where
  | verifiedOnly
  | passiveBounded
  | scheduledActive
  | fixedCap
  deriving DecidableEq

def CapacityLearningPolicy.asStr : CapacityLearningPolicy → String
  | .verifiedOnly => "verified_only"
  | .passiveBounded => "passive_bounded"
  | .scheduledActive => "scheduled_active"
  | .fixedCap => "fixed_cap"

/-- `CapacityLearningPolicy::parse`, with its other spellings. -/
def CapacityLearningPolicy.parse : Text → Option CapacityLearningPolicy :=
  ofWord [("verified_only", .verifiedOnly), ("verified-only", .verifiedOnly),
    ("passive_bounded", .passiveBounded), ("passive-bounded", .passiveBounded),
    ("passive", .passiveBounded), ("scheduled_active", .scheduledActive),
    ("scheduled-active", .scheduledActive), ("periodic_active", .scheduledActive),
    ("fixed_cap", .fixedCap), ("fixed-cap", .fixedCap), ("fixed", .fixedCap)]

/-- `validate_capacity_learning_service_caps`. -/
def validateCapacityLearningServiceCaps {α : Type} (policy : Option CapacityLearningPolicy)
    (downloadServiceCapKbps uploadServiceCapKbps : Option α) : Except String Unit :=
  check (!(policy == some .fixedCap
      && (downloadServiceCapKbps.isNone || uploadServiceCapKbps.isNone)))
    "fixed-cap capacity learning requires download and upload service hard caps"

end CakeAutorate.Autotune

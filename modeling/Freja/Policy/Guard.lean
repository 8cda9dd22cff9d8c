import Freja.Domain.Flow

namespace Freja.Policy
open Domain IpAddress

def ec2Ipv4MetadataAddress : IpAddr := .v4 169 254 169 254
def alibabaIpv4MetadataAddress : IpAddr := .v4 100 100 100 200
def ec2Ipv6MetadataAddress : IpAddr := .ofSegments 0xfd00 0x0ec2 0 0 0 0 0 0x0254

inductive DestinationAccess where
  | protect
  | allow
  deriving DecidableEq, Repr

structure DestinationGuardSettings where
  private_ : DestinationAccess
  linkLocal : DestinationAccess
  loopback : DestinationAccess
  metadata : DestinationAccess
  deriving DecidableEq, Repr

structure DestinationGuard where
  settings : DestinationGuardSettings
  loopbackRule : RuleId
  linkLocalRule : RuleId
  privateRule : RuleId
  metadataRule : RuleId
  unroutableRule : RuleId
  deriving DecidableEq, Repr

def DestinationGuard.new (settings : DestinationGuardSettings) : DestinationGuard :=
  {settings := settings
   loopbackRule := ⟨"protect-loopback-destination",by decide⟩
   linkLocalRule := ⟨"protect-link-local-destination",by decide⟩
   privateRule := ⟨"protect-private-destination",by decide⟩
   metadataRule := ⟨"protect-metadata-destination",by decide⟩
   unroutableRule := ⟨"protect-unroutable-destination",by decide⟩}

def isUnroutable (address : IpAddr) : Bool := address.isUnspecified || address.isMulticast

def isMetadata (address : IpAddr) : Bool :=
  address == ec2Ipv4MetadataAddress || address == alibabaIpv4MetadataAddress || address == ec2Ipv6MetadataAddress

def denyDecision (generation : PolicyGeneration) (facts : ResolvedTargetFacts) (matchedRule : RuleId)
    (addressClass : String) : Decision :=
  let action := match facts.requested.protocol with
    | .http => EnforcementAction.httpReject .forbidden
    | .tcp => .tcpClose ⟨.graceful⟩
  .new action generation .resolvedDestination (some matchedRule)
    [⟨"destination-address-class",format facts.resolvedIp ++ " (" ++ addressClass ++ ")"⟩]

def DestinationGuard.evaluate (guard : DestinationGuard) (generation : PolicyGeneration) (facts : ResolvedTargetFacts) :
    Option Decision :=
  let address := facts.resolvedIp
  let deny := denyDecision generation facts
  if isUnroutable address then some (deny guard.unroutableRule "unroutable")
  else if isMetadata address && guard.settings.metadata == .protect then some (deny guard.metadataRule "metadata-service")
  else if address.isLoopback && guard.settings.loopback == .protect then some (deny guard.loopbackRule "loopback")
  else if address.isLinkLocal && guard.settings.linkLocal == .protect then some (deny guard.linkLocalRule "link-local")
  else if address.isPrivate && guard.settings.private_ == .protect then some (deny guard.privateRule "private")
  else none

variable (guard : DestinationGuard) (generation : PolicyGeneration) (facts : ResolvedTargetFacts)
  (decision : Decision)

theorem DestinationGuard.evaluate_parts (denied : guard.evaluate generation facts = some decision) :
    ∃ rule addressClass, decision = denyDecision generation facts rule addressClass := by
  simp only [DestinationGuard.evaluate] at denied
  repeat' split at denied
  all_goals cases denied
  all_goals exact ⟨_,_,rfl⟩

theorem DestinationGuard.evaluate_stage (denied : guard.evaluate generation facts = some decision) :
    decision.trace.evaluatedStage = .resolvedDestination := by
  obtain ⟨rule,addressClass,rfl⟩ := guard.evaluate_parts generation facts decision denied
  rfl

theorem DestinationGuard.evaluate_denies (denied : guard.evaluate generation facts = some decision) :
    decision.action ≠ .allow := by
  obtain ⟨rule,addressClass,rfl⟩ := guard.evaluate_parts generation facts decision denied
  cases protocol : facts.requested.protocol <;> simp [denyDecision,Decision.new,protocol]

-- The rule the guard denies an address with, if it denies it.
def DestinationGuard.verdict (guard : DestinationGuard) (generation : PolicyGeneration) (facts : ResolvedTargetFacts) :
    Option (Option RuleId) :=
  (guard.evaluate generation facts).map (fun decision => decision.trace.matchedRule)

-- The octets of the IPv4 addresses that the settings protect.
def ProtectedOctets (settings : DestinationGuardSettings) (a b c d : UInt8) : Prop :=
  (a = 0 ∧ b = 0 ∧ c = 0 ∧ d = 0) ∨ (224 ≤ a ∧ a ≤ 239) ∨
    (settings.metadata = .protect ∧
      ((a = 169 ∧ b = 254 ∧ c = 169 ∧ d = 254) ∨ (a = 100 ∧ b = 100 ∧ c = 100 ∧ d = 200))) ∨
    (settings.loopback = .protect ∧ a = 127) ∨
    (settings.linkLocal = .protect ∧ a = 169 ∧ b = 254) ∨
    (settings.private_ = .protect ∧ (a = 10 ∨ (a = 172 ∧ 16 ≤ b ∧ b ≤ 31) ∨ (a = 192 ∧ b = 168)))

theorem DestinationGuard.evaluate_v4 (settings : DestinationGuardSettings) (generation : PolicyGeneration)
    (requested : RequestedTargetFacts) (a b c d : UInt8) :
    (DestinationGuard.new settings).evaluate generation ⟨requested,.v4 a b c d⟩ = none ↔
      ¬ ProtectedOctets settings a b c d := by
  have unspecified := IpAddr.isUnspecified_v4 a b c d
  have metadata : isMetadata (.v4 a b c d) = true ↔
      (a = 169 ∧ b = 254 ∧ c = 169 ∧ d = 254) ∨ (a = 100 ∧ b = 100 ∧ c = 100 ∧ d = 200) := by
    simp [isMetadata,ec2Ipv4MetadataAddress,alibabaIpv4MetadataAddress,ec2Ipv6MetadataAddress,IpAddr.ofSegments]
  have private_ : (IpAddr.v4 a b c d).isPrivate = true ↔
      a = 10 ∨ (a = 172 ∧ 16 ≤ b ∧ b ≤ 31) ∨ (a = 192 ∧ b = 168) := by
    simp [IpAddr.isPrivate,and_assoc,or_assoc]
  unfold DestinationGuard.evaluate ProtectedOctets
  simp only [DestinationGuard.new,isUnroutable,Bool.or_eq_true,Bool.and_eq_true,beq_iff_eq,unspecified,metadata,private_,
    IpAddr.isMulticast,IpAddr.isLoopback,IpAddr.isLinkLocal,decide_eq_true_eq]
  grind

theorem DestinationGuard.evaluate_mapped (settings : DestinationGuardSettings) (generation : PolicyGeneration)
    (requested : RequestedTargetFacts) (a b c d : UInt8) :
    (DestinationGuard.new settings).evaluate generation ⟨requested,IpAddr.toIpv6Mapped a b c d⟩ = none := by
  have zero (mask class_ : UInt16) (nonzero : class_ ≠ 0) : ((0 : UInt16) &&& mask == class_) = false := by
    rw [UInt16.zero_and]
    exact beq_eq_false_iff_ne.mpr nonzero.symm
  have multicast : (IpAddr.toIpv6Mapped a b c d).isMulticast = false := zero 0xff00 0xff00 (by decide)
  have linkLocal : (IpAddr.toIpv6Mapped a b c d).isLinkLocal = false := zero 0xffc0 0xfe80 (by decide)
  have private_ : (IpAddr.toIpv6Mapped a b c d).isPrivate = false := zero 0xfe00 0xfc00 (by decide)
  have loopback : (IpAddr.toIpv6Mapped a b c d).isLoopback = false := by
    simp [IpAddr.isLoopback,IpAddr.toIpv6Mapped,IpAddr.ofSegments]
  have metadata : isMetadata (IpAddr.toIpv6Mapped a b c d) = false := by
    simp [isMetadata,ec2Ipv4MetadataAddress,alibabaIpv4MetadataAddress,ec2Ipv6MetadataAddress,IpAddr.toIpv6Mapped,
      IpAddr.ofSegments]
  simp [DestinationGuard.evaluate,isUnroutable,IpAddr.isUnspecified_mapped,multicast,linkLocal,private_,loopback,metadata]

theorem DestinationGuard.mapped_verdict_iff (settings : DestinationGuardSettings) (generation : PolicyGeneration)
    (requested : RequestedTargetFacts) (a b c d : UInt8) :
    (DestinationGuard.new settings).verdict generation ⟨requested,IpAddr.toIpv6Mapped a b c d⟩ =
        (DestinationGuard.new settings).verdict generation ⟨requested,.v4 a b c d⟩ ↔
      ¬ ProtectedOctets settings a b c d := by
  unfold DestinationGuard.verdict
  rw [DestinationGuard.evaluate_mapped,← DestinationGuard.evaluate_v4 settings generation requested,Option.map_none]
  constructor
  · intro same
    exact Option.map_eq_none_iff.mp same.symm
  · intro silent
    rw [silent,Option.map_none]

-- The metadata service is reached in its IPv6 notation.
theorem metadata_reached_mapped :
    let guard := DestinationGuard.new ⟨.protect,.protect,.protect,.protect⟩
    let requested : RequestedTargetFacts :=
      ⟨.v4 192 0 2 1,.ip (.ofSegments 0 0 0 0 0 0xffff 0xa9fe 0xa9fe),⟨80,by decide⟩,.http⟩
    guard.verdict .initial ⟨requested,.v4 169 254 169 254⟩ = some (some guard.metadataRule) ∧
      guard.verdict .initial ⟨requested,IpAddr.toIpv6Mapped 169 254 169 254⟩ = none := by
  decide

end Freja.Policy

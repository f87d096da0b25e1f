import Mathlib.Tactic

/-!
# Names and rules both sides of the agent protocol share

The name patterns and the image server rule of `packages/common/src/protocol/agent.ts`, and the mount
path rule of `packages/common/src/protocol/rest-schema.ts`.
-/

namespace Nyabase.Common

/-! ## Patterns -/

def isDigit (c : Char) : Bool := '0' ≤ c && c ≤ '9'

/-- `[0-9a-f]`. -/
def isLowerHex (c : Char) : Bool := isDigit c || ('a' ≤ c && c ≤ 'f')

/-- `/^<tag>[0-9a-f]{digits}$/`. -/
def taggedHex (tag : String) (digits : Nat) (text : String) : Bool :=
  tag.toList.isPrefixOf text.toList && (text.toList.drop tag.toList.length).length == digits &&
    (text.toList.drop tag.toList.length).all isLowerHex

/-- `MANAGED_NIC_HOST_NAME_PATTERN`. -/
def managedNicHostName : String → Bool := taggedHex "nyh" 12

/-- `MANAGED_INSTANCE_NAME_PATTERN`. -/
def managedInstanceName : String → Bool := taggedHex "nyc-" 32

/-- `MANAGED_VOLUME_NAME_PATTERN`. -/
def managedVolumeName : String → Bool := taggedHex "nyv-" 32

/-- `MANAGED_ATTACHMENT_DEVICE_PATTERN`. -/
def managedAttachmentDevice : String → Bool := taggedHex "nyd-" 32

/-- `GUEST_IPV6_DISABLE_SYSCTLS`. -/
def guestIpv6DisableSysctls : List String :=
  ["linux.sysctl.net.ipv6.conf.all.disable_ipv6", "linux.sysctl.net.ipv6.conf.default.disable_ipv6"]

theorem taggedHex_iff {tag : String} {digits : Nat} {text : String} : taggedHex tag digits text = true ↔
      ∃ rest, text.toList = tag.toList ++ rest ∧ rest.length = digits ∧ ∀ c ∈ rest, isLowerHex c = true := by
  simp only [taggedHex, Bool.and_eq_true, beq_iff_eq, List.all_eq_true, List.isPrefixOf_iff_prefix]
  constructor
  · rintro ⟨⟨⟨rest, hrest⟩, hlen⟩, hall⟩
    rw [← hrest, List.drop_left] at hlen hall
    exact ⟨rest, hrest.symm, hlen, hall⟩
  · rintro ⟨rest, htext, hlen, hall⟩
    rw [htext, List.drop_left]
    exact ⟨⟨List.prefix_append _ _, hlen⟩, hall⟩

/-! ## Image servers -/

/-- What `new URL` reads off a URL. -/
structure Url where
  protocol : String
  username : String
  password : String
  search : String
  hash : String

/-- Why `value` cannot be an image server Incus pulls from, or `none`; `url` is `new URL`. -/
def imageSourceServerProblem (url : String → Option Url) (value : String) : Option String :=
  match url value with
  | none => some "image source server must be a URL"
  | some parsed =>
    if parsed.protocol != "https:" then some "image source server must use https"
    else if parsed.username != "" || parsed.password != "" then
      some "image source server must not carry credentials"
    else if parsed.search != "" || parsed.hash != "" || value.toList.contains '?' || value.toList.contains '#' then
      some "image source server must not carry a query or fragment"
    else none

/-! ## Mount paths -/

/-- `FORBIDDEN_CONTAINER_MOUNT_ROOTS`. -/
def forbiddenContainerMountRoots : List String := ["/proc", "/sys", "/dev"]

/-- The path without empty segments and `.` segments. -/
def normalizedContainerPath (path : String) : List Char :=
  '/' :: ['/'].intercalate ((path.toList.splitOn '/').filter fun part => part != [] && part != ['.'])

/-- True for a container path equal to or under a forbidden root. -/
def isForbiddenContainerMountPath (path : String) : Bool :=
  let normalized := normalizedContainerPath path
  forbiddenContainerMountRoots.any fun root =>
    normalized == root.toList || (root.toList ++ ['/']).isPrefixOf normalized

end Nyabase.Common

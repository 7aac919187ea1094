namespace PluginAudit.Text

/-- A character that embeds, overrides or isolates a direction of writing, or ends that. -/
def isDirectional (c : Char) : Bool :=
  (0x202A ≤ c.toNat && c.toNat ≤ 0x202E) || (0x2066 ≤ c.toNat && c.toNat ≤ 0x2069)

def hasDirectional (s : String) : Bool :=
  s.any isDirectional

end PluginAudit.Text

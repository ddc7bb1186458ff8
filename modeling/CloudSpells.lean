import CloudSpells.Machinery.Exec
import CloudSpells.Machinery.Lockstep
import CloudSpells.Machinery.Journal
import CloudSpells.Machinery.Ledger
import CloudSpells.Machinery.Segments
import CloudSpells.Machinery.Substitution
import CloudSpells.Machinery.Block
import CloudSpells.Core.Python
import CloudSpells.Core.Naming
import CloudSpells.Core.SpellType
import CloudSpells.Core.Role
import CloudSpells.Core.SecurityRules
import CloudSpells.Network.Cidr
import CloudSpells.Network.Tiers
import CloudSpells.Network.Helper
import CloudSpells.Network.Ipv6Text
import CloudSpells.Network.TierIpv6
import CloudSpells.Network.Rule
import CloudSpells.Network.Packet
import CloudSpells.Network.Translate
import CloudSpells.Network.Vcn
import CloudSpells.Network.Builder
import CloudSpells.Network.Finalize
import CloudSpells.Network.State
import CloudSpells.Network.Evolution
import CloudSpells.Network.History
import CloudSpells.Network.Ownership
import CloudSpells.Network.Registry
import CloudSpells.Network.VcnRef
import CloudSpells.Spells.Construct
import CloudSpells.Spells.Bastion
import CloudSpells.Spells.Nsg
import CloudSpells.Spells.Groups
import CloudSpells.Spells.Compute
import CloudSpells.Spells.Autoscale
import CloudSpells.Spells.Kubernetes
import CloudSpells.Spells.ClusterRules
import CloudSpells.Spells.Fingerprint
import CloudSpells.Spells.Kept
import CloudSpells.Spells.Program
import CloudSpells.Spells.OnRef
import CloudSpells.Spells.Presence
import CloudSpells.Spells.Isolation
import CloudSpells.Spells.DataPath
import CloudSpells.Spells.Aliases
import CloudSpells.Spells.Relations
import CloudSpells.Spells.Serves
import CloudSpells.Spells.Policy
import CloudSpells.Spells.Contributions
import CloudSpells.Spells.Labels
import CloudSpells.Spells.Ports
import CloudSpells.Spells.Refusal
import CloudSpells.Spells.Made
import CloudSpells.Spells.Protocol
import CloudSpells.Spells.Edge
import CloudSpells.Spells.Layers
import CloudSpells.Spells.Order
import CloudSpells.Cli.Scaffold
import CloudSpells.Cli.Project
import CloudSpells.Spells.Standalone
import CloudSpells.Spells.Iam
import CloudSpells.Spells.Buckets
import CloudSpells.Spells.Urns
import CloudSpells.Spells.Components
import CloudSpells.Spells.RuleKeys
import CloudSpells.Spells.Outputs
import CloudSpells.Network.Audit
import CloudSpells.Machinery.Regex
import CloudSpells.Spells.Scaling
import CloudSpells.Spells.VolumeLabel
import CloudSpells.Cli.NewProject
import CloudSpells.Cli.Recovery
import CloudSpells.Spells.Volumes
import CloudSpells.Machinery.YamlScalar
import CloudSpells.Machinery.Yaml
import CloudSpells.Machinery.YamlEdit
import CloudSpells.Cli.PulumiYaml
import CloudSpells.Cli.BackendUrl
import CloudSpells.Spells.CrossStack
import CloudSpells.Cli.Machine
import CloudSpells.Cli.Commands
import CloudSpells.Cli.Contracts
import CloudSpells.Cli.Consent
import CloudSpells.Cli.Secrets
import CloudSpells.Machinery.YamlCut

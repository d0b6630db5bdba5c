import Apos.EffectProgram
import Apos.ThreadSystem
import Apos.DrbdAgentSplitBrain
import Apos.DrbdAgentAnswers
import Apos.DrbdAgentHealth
import Apos.DrbdAgentSupervision
import Apos.DrbdAgentStartStop
import Apos.DrbdAgentRecordUpdates
import Apos.DrbdAgentRecordFile
import Apos.DevmonPipe
import Apos.RdeAgentPreemption
import Apos.RdeAgentGivingUp
import Apos.RdeAgentCounter
import Apos.UserDbRefinement
import Apos.UserDbLocking
import Apos.UserDbDamage
import Apos.NssFbsEnumeration
import Apos.UserDbReaders
import Apos.VlandefLocking
import Apos.CluParseLocking
import Apos.ComponentActivation
import Apos.ClusterconfStatus
import Apos.RdeAgentDiskFlags
import Apos.RdeAgentRoleChange
import Apos.NssFbsRetries
import Apos.DrbdAgentProbes
import Apos.DrbdAgentConfigFile
import Apos.DrbdAgentMipAgreement
import Apos.RdeAgentStatusFile
import Apos.SmartImageTemplate
import Apos.ImmCommandLine
import Apos.ImmValues
import Apos.UserDbCommandLine
import Apos.UserDbReadability
import Apos.LdapConfiguration
import Apos.AddressValidation
import Apos.VlandefCreation
import Apos.NetdefCompliance
import Apos.NetdefRouteUpdates
import Apos.DrbdAgentPackets
import Apos.ComponentLocks
import Apos.OvfProperties
import Apos.ParmtoolGet

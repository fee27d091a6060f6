import Ext4Lwext4.Metatheory.DeviceEquivalence
import Ext4Lwext4.Metatheory.BoundsCheck
import Ext4Lwext4.Metatheory.Callbacks
import Ext4Lwext4.Metatheory.DeviceExclusion
import Ext4Lwext4.Metatheory.Durability
import Ext4Lwext4.Metatheory.Registration
import Ext4Lwext4.Metatheory.MountNames
import Ext4Lwext4.Metatheory.ReadOnlyIsolation
import Ext4Lwext4.Metatheory.UmountReports
import Ext4Lwext4.Metatheory.Mkdir
import Ext4Lwext4.Metatheory.ErrorReports
import Ext4Lwext4.Metatheory.ErrorCauses
import Ext4Lwext4.Metatheory.Seeking
import Ext4Lwext4.Metatheory.WriteAll
import Ext4Lwext4.Metatheory.WholeFiles
import Ext4Lwext4.Metatheory.Listing
import Ext4Lwext4.Metatheory.BlockCounts
import Ext4Lwext4.Metatheory.SpaceAccounting
import Ext4Lwext4.Metatheory.DeviceGeometry
import Ext4Lwext4.Metatheory.ClaimedSize
import Ext4Lwext4.Metatheory.ConcurrentReads
import Ext4Lwext4.Metatheory.Symlinks
import Ext4Lwext4.Metatheory.ListedNames
import Ext4Lwext4.Metatheory.VolumeLabel
import Ext4Lwext4.Metatheory.Instances
import Ext4Lwext4.Metatheory.Builds
import Ext4Lwext4.Metatheory.Disk
import Ext4Lwext4.Metatheory.FileHistory
import Ext4Lwext4.Metatheory.Images
import Ext4Lwext4.Metatheory.Queries
